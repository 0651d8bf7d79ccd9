import Apsdk.MediaHttpService
import Apsdk.Proofs.CastingRun
import Apsdk.Proofs.PlayerLocations
import Apsdk.Proofs.RouteLookup
import Apsdk.Proofs.WellFormedResponse

/-! What the player gets from the store. Whatever calls come between its requests, it is
served what the current session has been given last for a path, and nothing else. -/

namespace Apsdk.MediaHttp
open Library MediaDataStore Airplay

/-- What the current session has been given, with the path under which it is served. -/
structure Shelf where
  app : AppId
  host : Bytes
  /-- The last entry for a path counts. -/
  kept : List (Bytes × Bytes)

namespace Shelf
variable (rewriting : Rewriting) (shelf : Shelf)

def empty : Shelf := ⟨.unknown, [], []⟩

/-- A store that rewrites as the session does. -/
def store : Store := { Store.new 0 with appId := shelf.app, host := shelf.host }

/-- The entry that an answer makes. -/
def placed (uri data : Bytes) : Option (Bytes × Bytes) := do
  let adjusted ← shelf.store.adjustedData rewriting uri data
  let path ← shelf.store.extractUriPath uri
  if path ≠ [] ∧ adjusted ≠ [] then some (path, adjusted) else none

def record : Call → Shelf
  | .setStoreRoot port => { shelf with host := (shelf.store.setStoreRoot port).host }
  | .requestMediaData _ primaryUri _ => ⟨Store.getAppId primaryUri, shelf.host, []⟩
  | .processMediaData _ uri data => { shelf with kept := shelf.kept ++ (shelf.placed rewriting uri data).toList }
  | .reset => ⟨.unknown, shelf.host, []⟩

/-- A request for what is served under its URI. -/
def serve (date : DateText) (req : Request) : Option Response :=
  let res := Response.new req.schemeVersion
  if (RequestRouteTable.before 47 req.schemeVersion).getD [] ≠ ascii "HTTP" then none
  else if req.method ≠ ascii "GET" then some (addCommonHeader date (res.withStatus ok))
  else
    match SortedMap.lastValue req.uri shelf.kept with
    | none => some (addCommonHeader date (res.withStatus notFound))
    | some data => some (addCommonHeader date (((res.withStatus ok).withContentType APPLICATION_MPEGURL).withContentString data))

def step : Machine Shelf Event Response
  | shelf, .call call => some (shelf.record rewriting call, [])
  | shelf, .request date req => some (shelf, (shelf.serve date req).toList)

end Shelf

section Routing
variable (store : Store) (date : DateText) (req : Request)

theorem routeTable_eq :
    routeTable = RequestRouteTable.registerAll [⟨ascii "HTTP", ascii "GET", ascii "*", .get⟩] := rfl

theorem queryHandler_eq : RequestRouteTable.queryHandler routeTable req =
    if RequestRouteTable.schemeOf req ≠ ascii "HTTP" then .error .unknownScheme
    else if req.method ≠ ascii "GET" then .error .unknownMethod
    else .ok .get := by
  rw [routeTable_eq, RequestRouteTable.queryHandler_registerAll]
  by_cases scheme : RequestRouteTable.schemeOf req = ascii "HTTP"
  · by_cases method : req.method = ascii "GET"
    · rw [if_neg (not_not_intro scheme), if_neg (not_not_intro method), scheme, method]
      by_cases path : RequestRouteTable.pathOf req = ascii "*"
      · rw [path]
        rfl
      · simp [RequestRouteTable.lookup, RequestRouteTable.lastHandler, Ne.symm path]
    · rw [if_neg (not_not_intro scheme), if_pos method, scheme]
      simp [RequestRouteTable.lookup, RequestRouteTable.lastHandler, Ne.symm method]
  · rw [if_pos scheme]
    simp [RequestRouteTable.lookup, RequestRouteTable.lastHandler, Ne.symm scheme]

/-- A request is answered with what the store has under its whole URI. -/
theorem processRequest_eq : processRequest store date req =
    if RequestRouteTable.schemeOf req ≠ ascii "HTTP" then none
    else if req.method ≠ ascii "GET" then some (addCommonHeader date ((Response.new req.schemeVersion).withStatus ok))
    else some (addCommonHeader date (getHandler store req (.new req.schemeVersion))) := by
  simp only [processRequest, queryHandler_eq]
  split_ifs <;> rfl

end Routing

section Refinement
variable {rewriting : Rewriting} {store : Store} {shelf : Shelf}

/-- The store of a session with what the session has been given. -/
structure Holds (store : Store) (shelf : Shelf) : Prop where
  app : store.appId = shelf.app
  host : store.host = shelf.host
  kept : ∀ path, store.mediaData.find? path = SortedMap.lastValue path shelf.kept
  filled : ∀ entry ∈ shelf.kept, entry.2 ≠ []

theorem adjustedData_congr {other : Store} (app : store.appId = other.appId) (host : store.host = other.host) (uri data : Bytes) :
    store.adjustedData rewriting uri data = other.adjustedData rewriting uri data := by
  unfold Store.adjustedData Store.adjustPrimaryMediaData Store.adjustMlhlsData Store.adjustNfhlsData
  rw [app, host]

theorem nextRequest_keeps (store : Store) (connected : Bool) :
    (store.nextRequest connected).1.appId = store.appId ∧ (store.nextRequest connected).1.host = store.host := by
  unfold Store.nextRequest
  split
  · exact ⟨rfl, rfl⟩
  · exact ⟨rfl, rfl⟩

/-- What an answer leaves of a store, and what it brings. -/
theorem processMediaData_keeps (app : store.appId = shelf.app) (host : store.host = shelf.host) (connected : Bool) (uri data : Bytes) :
    let next := (store.processMediaData rewriting connected uri data).1
    next.appId = store.appId ∧ next.host = store.host ∧
      next.mediaData = store.mediaData.insertAll (shelf.placed rewriting uri data).toList := by
  obtain ⟨stacked, here⟩ : ∃ stacked : Store, stacked = if Store.isPrimaryDataUri uri then
      { store with uriStack := (Store.collectedUris rewriting data).reverse ++ store.uriStack } else store := ⟨_, rfl⟩
  have same : stacked.appId = store.appId ∧ stacked.host = store.host ∧ stacked.mediaData = store.mediaData := by
    rw [here]
    split
    · exact ⟨rfl, rfl, rfl⟩
    · exact ⟨rfl, rfl, rfl⟩
  obtain ⟨apps, hosts, data_⟩ := same
  have adjusted : (if Store.isPrimaryDataUri uri then some (stacked.adjustPrimaryMediaData data)
      else rewriting.adjustSecondaryMediaData data) = shelf.store.adjustedData rewriting uri data := by
    have agrees : stacked.adjustedData rewriting uri data = shelf.store.adjustedData rewriting uri data :=
      adjustedData_congr (apps.trans app) (hosts.trans host) uri data
    exact agrees
  have path : stacked.extractUriPath uri = shelf.store.extractUriPath uri :=
    extractUriPath_congr (apps.trans app) uri
  unfold Store.processMediaData
  dsimp only
  rw [← here, adjusted, Shelf.placed]
  cases shelf.store.adjustedData rewriting uri data with
  | none => exact ⟨apps, hosts, data_⟩
  | some mediaData =>
    dsimp only
    rw [path]
    cases shelf.store.extractUriPath uri with
    | none => exact ⟨apps, hosts, data_⟩
    | some path =>
      obtain ⟨added, there⟩ : ∃ added : Store, added =
          if path ≠ [] ∧ mediaData ≠ [] then stacked.addMediaData path mediaData else stacked := ⟨_, rfl⟩
      obtain ⟨app', host'⟩ := nextRequest_keeps added connected
      dsimp only
      rw [← there]
      refine ⟨app'.trans ?_, host'.trans ?_, (Store.nextRequest_mediaData added connected).trans ?_⟩
      · rw [there]
        split
        · exact apps
        · exact apps
      · rw [there]
        split
        · exact hosts
        · exact hosts
      · rw [there, ← data_]
        by_cases filled : path ≠ [] ∧ mediaData ≠ []
        · simp [filled, Store.addMediaData, SortedMap.insertAll]
        · simp [filled, SortedMap.insertAll]

theorem placed_filled {uri data : Bytes} {entry : Bytes × Bytes} (placed : shelf.placed rewriting uri data = some entry) :
    entry.2 ≠ [] := by
  obtain ⟨adjusted, -, later⟩ := Option.bind_eq_some_iff.mp placed
  obtain ⟨path, -, last⟩ := Option.bind_eq_some_iff.mp later
  split_ifs at last with filled
  obtain rfl := Option.some.inj last
  exact filled.2

theorem requestMediaData_keeps (store : Store) (connected : Bool) (primaryUri sessionId : Bytes) :
    let next := (store.requestMediaData connected primaryUri sessionId).1
    next.appId = Store.getAppId primaryUri ∧ next.host = store.host ∧ next.mediaData = .empty := by
  unfold Store.requestMediaData
  cases Store.getAppId primaryUri with
  | unknown => exact ⟨rfl, rfl, rfl⟩
  | youtube => exact ⟨rfl, rfl, rfl⟩
  | netflix => exact ⟨rfl, rfl, rfl⟩

theorem step_processMediaData (store : Store) (connected : Bool) (uri data : Bytes) :
    (store.step rewriting (.processMediaData connected uri data)).store =
      (store.processMediaData rewriting connected uri data).1 := by
  rw [Store.step]
  split
  next found => rw [found]
  next found => rw [found]

/-- One call. -/
theorem step_holds (holds : Holds store shelf) (call : Call) :
    Holds (store.step rewriting call).store (shelf.record rewriting call) := by
  cases call with
  | setStoreRoot port => exact ⟨holds.app, rfl, holds.kept, holds.filled⟩
  | reset => exact ⟨rfl, holds.host, fun _ => rfl, List.forall_mem_nil _⟩
  | requestMediaData connected primaryUri sessionId =>
    obtain ⟨app, host, empty⟩ := requestMediaData_keeps store connected primaryUri sessionId
    refine ⟨app, host.trans holds.host, fun path => ?_, List.forall_mem_nil _⟩
    show (store.requestMediaData connected primaryUri sessionId).1.mediaData.find? path = _
    rw [empty]
    rfl
  | processMediaData connected uri data =>
    obtain ⟨app, host, kept⟩ := @processMediaData_keeps rewriting store shelf holds.app holds.host connected uri data
    rw [step_processMediaData]
    refine ⟨app.trans holds.app, host.trans holds.host, fun path => ?_, ?_⟩
    · rw [kept, SortedMap.find?_insertAll, holds.kept]
      exact (SortedMap.lastValue_append ..).symm
    · refine List.forall_mem_append.mpr ⟨holds.filled, fun entry member => ?_⟩
      exact placed_filled (Option.mem_toList.mp member)

theorem processRequest_holds (holds : Holds store shelf) (date : DateText) (req : Request) :
    processRequest store date req = shelf.serve date req := by
  have scheme : RequestRouteTable.schemeOf req = (RequestRouteTable.before 47 req.schemeVersion).getD [] := rfl
  rw [processRequest_eq, Shelf.serve, ← scheme]
  split_ifs
  · rfl
  · rfl
  rw [getHandler, Store.queryMediaData, holds.kept]
  cases found : SortedMap.lastValue req.uri shelf.kept with
  | none => rfl
  | some data =>
    have filled := holds.filled _ (SortedMap.mem_of_lastValue found)
    dsimp only
    rw [Option.getD_some, if_neg filled]

end Refinement

end Apsdk.MediaHttp
