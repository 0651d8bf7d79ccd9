import Apsdk.MediaDataStore
import Apsdk.Library.Replacing
import Mathlib.Data.List.TakeWhile

/-! A casting session in which every request is answered: the store asks for the
primary playlist and for each collected URI once, and names the location only
with the last answer. -/

namespace Apsdk.MediaDataStore
open Library

/-- How the answers to the requests of a store have gone. -/
structure Conversation where
  store : Store
  outstanding : List FcupRequest
  sent : List FcupRequest
  locations : List (Except Fault Bytes)

/-- A client that answers each request once before the next one, with the documents that it is given. -/
def converse (rewriting : Rewriting) (store : Store) : List FcupRequest → List Bytes → Conversation
  | [], _ => ⟨store, [], [], []⟩
  | fcup :: outstanding, [] => ⟨store, fcup :: outstanding, [], []⟩
  | fcup :: outstanding, data :: documents =>
    let (store, sent, location) := store.processMediaData rewriting true fcup.uri data
    let later := converse rewriting store (outstanding ++ sent) documents
    { later with sent := sent ++ later.sent, locations := location :: later.locations }

theorem converse_nil (rewriting : Rewriting) (store : Store) (documents : List Bytes) :
    converse rewriting store [] documents = ⟨store, [], [], []⟩ := by
  cases documents <;> rfl

namespace Store

/-- The entry for a URI and its adjusted data, unless that is empty. -/
def entry (store : Store) (answer : Bytes × Bytes) : Option (Bytes × Bytes) :=
  if answer.2 = [] then none else (store.extractUriPath answer.1).map fun path => (path, answer.2)

/-- The store with the adjusted data of an answer. -/
def keep (store : Store) (answer : Bytes × Bytes) : Store :=
  { store with mediaData := store.mediaData.insertAll (store.entry answer).toList }

/-- Requests for URIs, numbered on from the first. -/
def requests (store : Store) (first : Nat) (uris : List Bytes) : List FcupRequest :=
  uris.mapIdx fun i uri => ⟨UInt32.ofNat (first + i), uri, store.sessionId⟩

/-- A URI that a store stores under a path, and that is not taken for the primary one. -/
structure Secondary (store : Store) (uri : Bytes) : Prop where
  other : contains MASTER_M3U8 uri = false ∧ contains INDEX_M3U8 uri = false
  path : ∃ path, path ≠ [] ∧ store.extractUriPath uri = some path

end Store

variable {rewriting : Rewriting} {store : Store}

theorem extractUriPath_congr {other : Store} (same : store.appId = other.appId) (uri : Bytes) :
    store.extractUriPath uri = other.extractUriPath uri := by
  unfold Store.extractUriPath
  rw [same]

theorem entry_congr {other : Store} (same : store.appId = other.appId) : store.entry = other.entry := by
  funext answer
  unfold Store.entry
  rw [extractUriPath_congr same]

theorem Store.Secondary.congr {other : Store} {uri : Bytes} (secondary : store.Secondary uri) (same : other.appId = store.appId) :
    other.Secondary uri := by
  refine ⟨secondary.other, ?_⟩
  rw [extractUriPath_congr same]
  exact secondary.path

theorem Store.Secondary.not_primary {uri : Bytes} (secondary : store.Secondary uri) : Store.isPrimaryDataUri uri = false := by
  have absent : ∀ pattern, contains pattern uri = false → contains pattern (uri.takeWhile (· ≠ 0)) = false := by
    intro pattern missing
    by_contra found
    have whole := contains_append (Bool.not_eq_false _ ▸ found) (uri.dropWhile (· ≠ 0))
    rw [List.takeWhile_append_dropWhile, missing] at whole
    cases whole
  unfold Store.isPrimaryDataUri
  dsimp only
  rw [absent _ secondary.other.1, absent _ secondary.other.2]
  rfl

theorem primary_of_contains {uri : Bytes} (text : 0 ∉ uri)
    (playlist : (contains MASTER_M3U8 uri || contains INDEX_M3U8 uri) = true) : Store.isPrimaryDataUri uri = true := by
  have whole : uri.takeWhile (· ≠ 0) = uri := by
    refine List.takeWhile_eq_self_iff.mpr fun byte member => decide_eq_true ?_
    rintro rfl
    exact text member
  unfold Store.isPrimaryDataUri
  rw [whole]
  exact playlist

/-- The letter u is in the names of the playlists, but in none of the literals that are cut out. -/
theorem extractUriPath_of_contains {uri : Bytes} (playlist : (contains MASTER_M3U8 uri || contains INDEX_M3U8 uri) = true)
    (known : store.appId ≠ .unknown) : ∃ path, path ≠ [] ∧ store.extractUriPath uri = some path := by
  have letter : (117 : UInt8) ∈ uri := by
    cases Bool.or_eq_true_iff.mp playlist with
    | inl master => exact mem_of_contains master (by decide)
    | inr index => exact mem_of_contains index (by decide)
  have netflix : ∀ {text : Bytes}, 117 ∈ text → ∃ path, path ≠ [] ∧ Store.extractNetflixPath text = some path := by
    intro text member
    have kept : 117 ∈ replaceAll HOST_LIST [] (replaceAll [NFHLS_SCHEME] [] text) :=
      mem_replaceAll (by decide) (by decide) (mem_replaceAll (by decide) (by decide) member)
    unfold Store.extractNetflixPath
    split
    next empty =>
      rw [empty] at kept
      cases kept
    next first rest _ =>
      refine ⟨_, ?_, rfl⟩
      split <;> exact List.cons_ne_nil _ _
  unfold Store.extractUriPath
  cases app : store.appId with
  | youtube => exact netflix (mem_replaceAll (by decide) (by decide) (mem_replaceAll (by decide) (by decide) letter))
  | netflix => exact netflix letter
  | unknown => exact absurd app known

/-- Storing the data of an answer whose URI has a path. -/
theorem keep_eq {uri path data : Bytes} (filled : path ≠ []) (extracted : store.extractUriPath uri = some path) :
    (if path ≠ [] ∧ data ≠ [] then store.addMediaData path data else store) = store.keep (uri, data) := by
  by_cases empty : data = []
  · have skipped : store.entry (uri, data) = none := if_pos empty
    rw [if_neg fun both => both.2 empty, Store.keep, skipped]
    rfl
  · have entry : store.entry (uri, data) = some (path, data) := by
      rw [Store.entry, if_neg empty, extracted]
      rfl
    rw [if_pos ⟨filled, empty⟩, Store.keep, entry]
    rfl

/-- What the store does once it has kept an answer, and what comes of the requests that follow. -/
def proceed (rewriting : Rewriting) (kept : Store) (documents : List Bytes) : Conversation :=
  let (store, sent, location) := kept.nextRequest true
  let later := converse rewriting store sent documents
  { later with sent := sent ++ later.sent, locations := .ok location :: later.locations }

/-- The data for a collected URI is kept as it has been adjusted. -/
theorem processMediaData_secondary {uri data adjusted : Bytes} (secondary : store.Secondary uri)
    (rewritten : rewriting.adjustSecondaryMediaData data = some adjusted) (connected : Bool) :
    store.processMediaData rewriting connected uri data =
      (((store.keep (uri, adjusted)).nextRequest connected).1, ((store.keep (uri, adjusted)).nextRequest connected).2.1,
        .ok ((store.keep (uri, adjusted)).nextRequest connected).2.2) := by
  obtain ⟨path, filled, extracted⟩ := secondary.path
  rw [Store.processMediaData, secondary.not_primary]
  simp only [Bool.false_eq_true, if_false, rewritten, extracted, keep_eq filled extracted]

/-- Answering a request for a collected URI. -/
theorem converse_secondary {fcup : FcupRequest} {data adjusted : Bytes} (secondary : store.Secondary fcup.uri)
    (rewritten : rewriting.adjustSecondaryMediaData data = some adjusted) (documents : List Bytes) :
    converse rewriting store [fcup] (data :: documents) = proceed rewriting (store.keep (fcup.uri, adjusted)) documents := by
  rw [converse, processMediaData_secondary secondary rewritten]
  rfl

/-- Answering the request for the primary playlist, with nothing left of what was collected before. -/
theorem converse_primary {fcup : FcupRequest} {path data : Bytes} (primary : Store.isPrimaryDataUri fcup.uri = true)
    (filled : path ≠ []) (extracted : store.extractUriPath fcup.uri = some path) (empty : store.uriStack = [])
    (documents : List Bytes) :
    converse rewriting store [fcup] (data :: documents) = proceed rewriting
      ({ store with uriStack := (Store.collectedUris rewriting data).reverse }.keep
        (fcup.uri, store.adjustPrimaryMediaData data)) documents := by
  obtain ⟨stacked, here⟩ : ∃ stacked : Store, stacked = { store with uriStack := (Store.collectedUris rewriting data).reverse } :=
    ⟨_, rfl⟩
  have adjusted : stacked.adjustPrimaryMediaData data = store.adjustPrimaryMediaData data := here ▸ rfl
  have same : stacked.extractUriPath fcup.uri = some path := by
    rw [← extracted]
    exact extractUriPath_congr (here ▸ rfl) _
  have process : store.processMediaData rewriting true fcup.uri data =
      (((stacked.keep (fcup.uri, store.adjustPrimaryMediaData data)).nextRequest true).1,
        ((stacked.keep (fcup.uri, store.adjustPrimaryMediaData data)).nextRequest true).2.1,
        .ok ((stacked.keep (fcup.uri, store.adjustPrimaryMediaData data)).nextRequest true).2.2) := by
    rw [Store.processMediaData, primary, empty, List.append_nil]
    simp only [if_true, ← here, adjusted, same, keep_eq filled same]
  rw [converse, process, ← here]
  rfl

/-- How a conversation ends: every URI of the stack has been asked for once, from the top, and the location is named at the end. -/
structure Completes (first : Nat) (kept : Store) (answers : List (Bytes × Bytes)) (talk : Conversation) : Prop where
  outstanding : talk.outstanding = []
  sent : talk.sent = kept.requests first kept.uriStack
  locations : talk.locations = List.replicate kept.uriStack.length (.ok []) ++ [.ok kept.primaryUri]
  stored : talk.store.mediaData = kept.mediaData.insertAll (answers.filterMap kept.entry)

/-- The store with the next URI of the stack taken from it. -/
def Store.asked (store : Store) (rest : List Bytes) : Store :=
  { store with uriStack := rest, requestId := store.requestId + 1 }

theorem nextRequest_cons {uri : Bytes} {rest : List Bytes} (stack : store.uriStack = uri :: rest) :
    store.nextRequest true = (store.asked rest, [⟨store.requestId, uri, store.sessionId⟩], []) := by
  rw [Store.nextRequest, stack]
  rfl

theorem nextRequest_nil (stack : store.uriStack = []) : store.nextRequest true = (store, [], store.primaryUri) := by
  rw [Store.nextRequest, stack]

theorem insertAll_filterMap (map : SortedMap Bytes Bytes) (answer : Bytes × Bytes) (answers : List (Bytes × Bytes)) :
    map.insertAll ((answer :: answers).filterMap store.entry) =
      (map.insertAll (store.entry answer).toList).insertAll (answers.filterMap store.entry) := by
  rw [List.filterMap_cons]
  cases store.entry answer <;> rfl

/-- From an answer on, the store works through its stack. -/
theorem proceed_completes {adjust : Bytes → Bytes} (rewritten : ∀ data, rewriting.adjustSecondaryMediaData data = some (adjust data))
    {uris documents : List Bytes} (answered : documents.length = uris.length) {kept : Store} {first : Nat}
    (stack : kept.uriStack = uris) (number : kept.requestId = UInt32.ofNat first)
    (secondary : ∀ uri ∈ uris, kept.Secondary uri) :
    Completes first kept (uris.zip (documents.map adjust)) (proceed rewriting kept documents) := by
  induction uris generalizing documents kept first with
  | nil =>
    unfold proceed
    rw [nextRequest_nil stack]
    dsimp only
    rw [converse_nil]
    refine ⟨rfl, ?_, ?_, rfl⟩
    · rw [stack]
      rfl
    · rw [stack]
      rfl
  | cons uri uris ih =>
    cases documents with
    | nil => cases answered
    | cons data documents =>
      obtain ⟨here, later⟩ := List.forall_mem_cons.mp secondary
      have number' : kept.requestId + 1 = UInt32.ofNat (first + 1) := by
        rw [number, UInt32.ofNat_add]
        rfl
      have rest : Completes (first + 1) ((kept.asked uris).keep (uri, adjust data)) (uris.zip (documents.map adjust))
          (proceed rewriting ((kept.asked uris).keep (uri, adjust data)) documents) :=
        ih (Nat.succ.inj answered) rfl number' fun other member => (later other member).congr rfl
      have secondary' : (kept.asked uris).Secondary uri := here.congr rfl
      have asks : converse rewriting (kept.asked uris) [⟨kept.requestId, uri, kept.sessionId⟩] (data :: documents) =
          proceed rewriting ((kept.asked uris).keep (uri, adjust data)) documents :=
        @converse_secondary rewriting _ ⟨kept.requestId, uri, kept.sessionId⟩ data _ secondary' (rewritten data) documents
      unfold proceed
      rw [nextRequest_cons stack]
      dsimp only
      rw [asks]
      refine ⟨rest.outstanding, ?_, ?_, ?_⟩
      · rw [rest.sent, stack, number, Store.requests, Store.requests, List.mapIdx_cons]
        simp only [Nat.add_zero, Nat.add_assoc, Nat.add_comm 1]
        rfl
      · rw [rest.locations, stack]
        rfl
      · rw [rest.stored, List.map_cons, List.zip_cons_cons, insertAll_filterMap]
        rfl

/-- The store with which a session begins. -/
def Store.begin (store : Store) (primaryUri sessionId : Bytes) : Store :=
  ⟨Store.getAppId primaryUri, 2, sessionId, store.adjustPrimaryUri primaryUri, [], store.host, .empty⟩

theorem requestMediaData_known {primaryUri : Bytes} (known : Store.getAppId primaryUri ≠ .unknown) (sessionId : Bytes) :
    store.requestMediaData true primaryUri sessionId = (store.begin primaryUri sessionId, [⟨1, primaryUri, sessionId⟩], true) := by
  unfold Store.requestMediaData Store.begin
  cases app : Store.getAppId primaryUri with
  | youtube => rfl
  | netflix => rfl
  | unknown => exact absurd app known

/-- A session in which every request is answered: the requests are numbered from 1 on and go to the primary URI and then to
the collected ones, the last one first; only the last answer brings the location; and what was stored last under a path is found. -/
theorem casting_completes (hlsparseMaster : Bytes → Option MasterPlaylist) (adjust : Bytes → Bytes) (store : Store)
    (primaryUri sessionId data : Bytes) (documents : List Bytes) (known : Store.getAppId primaryUri ≠ .unknown)
    (text : 0 ∉ primaryUri) (playlist : (contains MASTER_M3U8 primaryUri || contains INDEX_M3U8 primaryUri) = true)
    (secondary : ∀ uri ∈ Store.collectedUris ⟨hlsparseMaster, fun data => some (adjust data)⟩ data,
      (store.requestMediaData true primaryUri sessionId).1.Secondary uri)
    (answered : documents.length = (Store.collectedUris ⟨hlsparseMaster, fun data => some (adjust data)⟩ data).length) :
    let rewriting : Rewriting := ⟨hlsparseMaster, fun data => some (adjust data)⟩
    let uris := (Store.collectedUris rewriting data).reverse
    let begun := store.requestMediaData true primaryUri sessionId
    let talk := converse rewriting begun.1 begun.2.1 (data :: documents)
    let answers := (primaryUri, begun.1.adjustPrimaryMediaData data) :: uris.zip (documents.map adjust)
    begun.2.2 = true ∧ begun.1.primaryUri = store.adjustPrimaryUri primaryUri ∧ talk.outstanding = [] ∧
      begun.2.1 ++ talk.sent = (primaryUri :: uris).mapIdx (fun i uri => ⟨UInt32.ofNat (i + 1), uri, sessionId⟩) ∧
      talk.locations = List.replicate uris.length (.ok []) ++ [.ok begun.1.primaryUri] ∧
      ∀ path, talk.store.queryMediaData path = (SortedMap.lastValue path (answers.filterMap begun.1.entry)).getD [] := by
  intro rewriting uris begun talk answers
  have begins : begun = (store.begin primaryUri sessionId, [⟨1, primaryUri, sessionId⟩], true) := requestMediaData_known known sessionId
  obtain ⟨path, filled, extracted⟩ := @extractUriPath_of_contains (store.begin primaryUri sessionId) primaryUri playlist known
  obtain ⟨stacked, here⟩ : ∃ stacked : Store, stacked = { store.begin primaryUri sessionId with uriStack := uris } := ⟨_, rfl⟩
  have first : talk = proceed rewriting (stacked.keep (primaryUri, (store.begin primaryUri sessionId).adjustPrimaryMediaData data))
      documents := by
    rw [here]
    show converse rewriting begun.1 begun.2.1 (data :: documents) = _
    rw [begins]
    exact @converse_primary rewriting _ ⟨1, primaryUri, sessionId⟩ path data (primary_of_contains text playlist) filled extracted
      rfl documents
  have apps : stacked.appId = (store.begin primaryUri sessionId).appId := by rw [here]
  have rest := @proceed_completes rewriting adjust (fun _ => rfl) uris documents (by rw [answered, List.length_reverse])
    (stacked.keep (primaryUri, (store.begin primaryUri sessionId).adjustPrimaryMediaData data)) 2 (by rw [here]; rfl)
    (by rw [here]; rfl) fun uri member => by
      have there := secondary uri (List.mem_reverse.mp member)
      rw [requestMediaData_known known] at there
      exact there.congr apps
  rw [← first] at rest
  rw [begins]
  refine ⟨rfl, rfl, rest.outstanding, ?_, ?_, ?_⟩
  · rw [rest.sent, List.mapIdx_cons, Store.requests, here]
    simp only [Nat.add_comm 2]
    rfl
  · rw [rest.locations, here]
    rfl
  · intro path
    have entries := rest.stored
    have same : (stacked.keep (primaryUri, (store.begin primaryUri sessionId).adjustPrimaryMediaData data)).entry = stacked.entry := rfl
    rw [same, Store.keep] at entries
    dsimp only at entries
    rw [← insertAll_filterMap, entry_congr apps] at entries
    have listed : answers = (primaryUri, (store.begin primaryUri sessionId).adjustPrimaryMediaData data) ::
        uris.zip (documents.map adjust) := by
      show (primaryUri, begun.1.adjustPrimaryMediaData data) :: _ = _
      rw [begins]
    have empty : stacked.mediaData = .empty := by rw [here]; rfl
    rw [Store.queryMediaData, entries, SortedMap.find?_insertAll, empty, SortedMap.find?_empty, Option.or_none, listed]

/-- A document that lists two URIs. -/
def twoListed : Bytes → Option MasterPlaylist
  | [1] => some ⟨[some (ascii "mlhls://localhost/a.m3u8")], [some (ascii "mlhls://localhost/b.m3u8")]⟩
  | _ => none

theorem two_listed_completes :
    let rewriting : Rewriting := ⟨twoListed, fun data => some (id data)⟩
    let uris := (Store.collectedUris rewriting [1]).reverse
    let begun := (Store.new 7).requestMediaData true (ascii "mlhls://localhost/master.m3u8") (ascii "A")
    let talk := converse rewriting begun.1 begun.2.1 ([1] :: [[2], [3]])
    let answers := (ascii "mlhls://localhost/master.m3u8", begun.1.adjustPrimaryMediaData [1]) :: uris.zip ([[2], [3]].map id)
    begun.2.2 = true ∧
      begun.1.primaryUri = (Store.new 7).adjustPrimaryUri (ascii "mlhls://localhost/master.m3u8") ∧ talk.outstanding = [] ∧
      begun.2.1 ++ talk.sent = (ascii "mlhls://localhost/master.m3u8" :: uris).mapIdx
        (fun i uri => ⟨UInt32.ofNat (i + 1), uri, ascii "A"⟩) ∧
      talk.locations = List.replicate uris.length (.ok []) ++ [.ok begun.1.primaryUri] ∧
      ∀ path, talk.store.queryMediaData path = (SortedMap.lastValue path (answers.filterMap begun.1.entry)).getD [] := by
  apply casting_completes twoListed id (Store.new 7) (ascii "mlhls://localhost/master.m3u8") (ascii "A") [1] [[2], [3]]
  · decide +kernel
  · decide +kernel
  · decide +kernel
  · have listed : Store.collectedUris ⟨twoListed, fun data => some (id data)⟩ [1] =
        [ascii "mlhls://localhost/a.m3u8", ascii "mlhls://localhost/b.m3u8"] := rfl
    rw [listed]
    simp only [List.forall_mem_cons]
    exact ⟨⟨by decide +kernel, ascii "/a.m3u8", by decide +kernel, by decide +kernel⟩,
      ⟨by decide +kernel, ascii "/b.m3u8", by decide +kernel, by decide +kernel⟩, fun _ member => nomatch member⟩
  · rfl

end Apsdk.MediaDataStore
