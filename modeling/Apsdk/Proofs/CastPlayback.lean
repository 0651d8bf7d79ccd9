import Apsdk.Proofs.CondensedExpansion
import Apsdk.Proofs.MediaServing
import Apsdk.Proofs.PlaylistCollection
import Apsdk.Proofs.ServedPlaylist

/-! A casting session from the client's documents to the player. Once the client has answered,
the player finds the master playlist at the location that it is given, and every playlist that
this lists where the list says. -/

namespace Apsdk.MediaHttp
open Library MediaDataStore Airplay

/-- A version of HTTP that may stand in a status line. -/
structure HttpVersion (version : Bytes) : Prop where
  http : ascii "HTTP/" <+: version
  text : IsLineText version
  noBlank : 32 ∉ version

/-- Whoever asks for the path is sent the body, in a response that parses. -/
def Serves (store : Store) (path body : Bytes) : Prop :=
  ∀ (date : DateText) (req : Request), HttpVersion req.schemeVersion → req.method = ascii "GET" → req.uri = path →
    ∃ res, processRequest store date req = some res ∧ res.statusCode = ok ∧ res.content = body ∧ res.WellFormed

section Responses

theorem addCommonHeader_sendable {kept : List Bytes} {version : Bytes} {res : Response}
    (free : HEADER_DATE ∉ kept ∧ HEADER_ALLOW_HEADER ∉ kept ∧ HEADER_ALLOW_ORIGIN ∉ kept) (sendable : Sendable kept version res)
    (date : DateText) : Sendable kept version (addCommonHeader date res) := by
  have tokens : IsToken HEADER_DATE ∧ IsToken HEADER_ALLOW_HEADER ∧ IsToken HEADER_ALLOW_ORIGIN :=
    ⟨⟨by decide +kernel, by decide +kernel⟩, ⟨by decide +kernel, by decide +kernel⟩, ⟨by decide +kernel, by decide +kernel⟩⟩
  have plain : IsValue HEADER_CONTENT_TYPE ∧ IsValue (ascii "*") := by decide +kernel
  exact ((sendable.withHeader tokens.1 date.plain free.1).withHeader tokens.2.1 plain.1 free.2.1).withHeader tokens.2.2 plain.2
    free.2.2

/-- What is posted for a stored playlist. -/
def playlistResponse (version body : Bytes) (date : DateText) : Response :=
  addCommonHeader date ((((Response.new version).withStatus ok).withContentType APPLICATION_MPEGURL).withContentString body)

theorem processRequest_stored {store : Store} {path body : Bytes} (found : store.mediaData.find? path = some body) (filled : body ≠ [])
    (date : DateText) {req : Request} (version : HttpVersion req.schemeVersion) (method : req.method = ascii "GET")
    (uri : req.uri = path) : processRequest store date req = some (playlistResponse req.schemeVersion body date) := by
  subst uri
  have scheme : RequestRouteTable.schemeOf req = ascii "HTTP" :=
    (RequestRouteTable.before_eq_iff (by decide)).mpr ⟨by decide, version.http⟩
  have data : store.queryMediaData req.uri = body := by
    rw [Store.queryMediaData, found]
    rfl
  rw [processRequest_eq, if_neg (not_not_intro scheme), if_neg (not_not_intro method), getHandler, data, if_neg filled]
  rfl

theorem playlistResponse_writable {version body : Bytes} (http : HttpVersion version) (fits : body.length < 2 ^ 63)
    (date : DateText) :
    (playlistResponse version body date).Writable ∧
      (playlistResponse version body date).contentLength = (playlistResponse version body date).content.length := by
  have type : IsValue APPLICATION_MPEGURL := by decide +kernel
  have opened := ((new_opened version).ok.withContentType type).withContentString body
  have completed := (addCommonHeader_sendable (by decide +kernel) opened date).weaken fieldNames_reserved
  have registered : Registered version := .inr http.http
  exact ⟨completed.writable (registered.begins http.text http.noBlank) http.text.lineEnd_not_mem fits, completed.length⟩

theorem serves_of_stored {store : Store} {path body : Bytes} (found : store.mediaData.find? path = some body) (filled : body ≠ [])
    (fits : body.length < 2 ^ 63) : Serves store path body := by
  intro date req version method uri
  obtain ⟨writable, length⟩ := playlistResponse_writable version fits date
  exact ⟨_, processRequest_stored found filled date version method uri, rfl, rfl, writable.wellFormed length⟩

end Responses

end Apsdk.MediaHttp

namespace Apsdk.MediaDataStore
open Library HlsParser

section Locations

theorem ne_nil_of_slashed {path : Bytes} (filled : path ≠ []) : slashed path ≠ [] := by
  unfold slashed
  split
  · exact filled
  · exact List.cons_ne_nil _ _

/-- The path of a URI whose address is written as its place expects. -/
theorem path_of_agrees {store : Store} {place : Place} {address : Bytes} (known : store.appId ≠ .unknown)
    (agrees : Agrees store.appId place address) :
    ∃ path, path ≠ [] ∧ store.extractUriPath (store.appId.scheme ++ address) = some path ∧
      store.location place (store.appId.scheme ++ address) = HTTP_SCHEME ++ store.host ++ path := by
  have extracted := extractUriPath_eq known address
  by_cases plain : (store.appId, place) = (.netflix, .document)
  · obtain ⟨app, rfl⟩ := Prod.mk.inj plain
    rw [app] at agrees extracted
    obtain ⟨replaced, left, start⟩ := @same_of_bare address store.host agrees
    rw [left, if_neg agrees.1] at extracted
    refine ⟨slashed address, ne_nil_of_slashed agrees.1, app ▸ extracted, ?_⟩
    rw [app]
    exact (document_netflix app address).trans (by rw [replaced, start, List.append_assoc]; rfl)
  · have local_ : LocalAddress address := by
      cases app : store.appId with
      | youtube =>
        rw [app] at agrees
        exact agrees
      | unknown => exact absurd app known
      | netflix =>
        rw [app] at agrees
        cases place with
        | primary => exact agrees
        | document => exact absurd (congrArg (fun app => (app, Place.document)) app) plain
    obtain ⟨name, member, path, rfl, slash, clean⟩ := local_
    obtain ⟨replaced, left, start⟩ := @same_of_local store.host name path store.appId place member slash clean known
    have filled : path ≠ [] := by
      rintro rfl
      cases slash
    rw [left, if_neg filled, start] at extracted
    exact ⟨path, filled, extracted, by rw [location_eq known plain, replaced, List.append_assoc]⟩

end Locations

section Rewritings
variable {rewriting rewriting' : Rewriting}

theorem processMediaData_congr (parses : rewriting.hlsparseMaster = rewriting'.hlsparseMaster) {data : Bytes}
    (same : rewriting.adjustSecondaryMediaData data = rewriting'.adjustSecondaryMediaData data) (store : Store) (connected : Bool)
    (uri : Bytes) : store.processMediaData rewriting connected uri data = store.processMediaData rewriting' connected uri data := by
  have collected : Store.collectedUris rewriting data = Store.collectedUris rewriting' data := by
    unfold Store.collectedUris
    rw [parses]
  unfold Store.processMediaData
  rw [collected, same]

/-- A session goes by the documents that it is given. -/
theorem converse_congr (parses : rewriting.hlsparseMaster = rewriting'.hlsparseMaster) {documents : List Bytes}
    (same : ∀ data ∈ documents, rewriting.adjustSecondaryMediaData data = rewriting'.adjustSecondaryMediaData data)
    (store : Store) (outstanding : List FcupRequest) :
    converse rewriting store outstanding documents = converse rewriting' store outstanding documents := by
  induction documents generalizing store outstanding with
  | nil =>
    cases outstanding with
    | nil => rfl
    | cons fcup outstanding => rfl
  | cons data documents ih =>
    cases outstanding with
    | nil => rfl
    | cons fcup outstanding =>
      obtain ⟨here, later⟩ := List.forall_mem_cons.mp same
      rw [converse, converse, processMediaData_congr parses here]
      simp only [ih later]

end Rewritings

section Values

/-- Where a key has one value only, that is the last. -/
theorem lastValue_of_unique {entries : List (Bytes × Bytes)} {key value : Bytes} (member : (key, value) ∈ entries)
    (unique : ∀ other, (key, other) ∈ entries → other = value) : SortedMap.lastValue key entries = some value := by
  cases found : SortedMap.lastValue key entries with
  | none => exact absurd rfl ((SortedMap.lastValue_eq_none_iff key entries).mp found _ member)
  | some other => rw [unique other (SortedMap.mem_of_lastValue found)]

end Values

/-- What the store does to a document that it does not fail on. -/
def adjust (data : Bytes) : Bytes := (adjustSecondaryMediaData data).getD []

/-- With documents that the store does not fail on, a session goes as if it never failed. -/
theorem proceed_total (parses : Bytes → Option MasterPlaylist) {documents : List Bytes}
    (expands : ∀ data ∈ documents, adjustSecondaryMediaData data = some (adjust data)) (kept : Store) :
    proceed (rewriting parses) kept documents = proceed ⟨parses, fun data => some (adjust data)⟩ kept documents := by
  have same : ∀ data ∈ documents, (rewriting parses).adjustSecondaryMediaData data =
      Rewriting.adjustSecondaryMediaData ⟨parses, fun data => some (adjust data)⟩ data := by
    intro data member
    rw [rewriting_adjust, expands data member]
  have parsed : (rewriting parses).hlsparseMaster = parses := by
    with_reducible simp only [rewriting]
  unfold proceed
  simp only [converse_congr parsed same]

/-- A session of a client that answers each URI with one document. What the client lists is written as the store expects it. -/
structure CastSession where
  app : AppId
  address : Bytes
  sessionId : Bytes
  entries : List Entry
  client : Bytes → Bytes
  adjusted : Bytes → Bytes
  known : app ≠ .unknown
  text : 0 ∉ app.scheme ++ address
  named : (contains MASTER_M3U8 (app.scheme ++ address) || contains INDEX_M3U8 (app.scheme ++ address)) = true
  primary : Agrees app .primary address
  filled : entries ≠ []
  short : (entries.flatMap Entry.text).length < 2 ^ 31
  proper : ∀ entry ∈ entries, entry.Proper ∧ entry.Kept
  gapless : Gapless (listing entries).media
  listed : ∀ uri ∈ (listing entries).uris, ∃ address, uri = app.scheme ++ address ∧ Agrees app .document address ∧
    contains MASTER_M3U8 uri = false ∧ contains INDEX_M3U8 uri = false
  apart : ∀ uri ∈ (listing entries).uris, ∀ other ∈ (app.scheme ++ address) :: (listing entries).uris,
    (serving app).extractUriPath other = (serving app).extractUriPath uri → other = uri
  answers : ∀ uri ∈ (listing entries).uris, adjustSecondaryMediaData (client uri) = some (adjusted uri) ∧ adjusted uri ≠ [] ∧
    (adjusted uri).length < 2 ^ 63

namespace CastSession
variable (session : CastSession)

def primaryUri : Bytes := session.app.scheme ++ session.address

/-- The document that answers the first request. -/
def document : Bytes := session.entries.flatMap Entry.text

def uris : List Bytes := (listing session.entries).uris

/-- The store with which the session begins. -/
def begun (store : Store) : Store := (store.requestMediaData true session.primaryUri session.sessionId).1

/-- The session with a store: every request is answered once, before the next one. -/
def talk (store : Store) : Conversation :=
  converse (rewriting playlist) (session.begun store) (store.requestMediaData true session.primaryUri session.sessionId).2.1
    (session.document :: session.uris.reverse.map session.client)

end CastSession

section Sessions
variable (session : CastSession) (store : Store)

theorem getAppId_scheme {app : AppId} (known : app ≠ .unknown) (address : Bytes) : Store.getAppId (app.scheme ++ address) = app := by
  cases app with
  | youtube => rfl
  | netflix => rfl
  | unknown => exact absurd rfl known

theorem begun_eq : session.begun store = store.begin session.primaryUri session.sessionId ∧
    (store.requestMediaData true session.primaryUri session.sessionId).2.1 = [⟨1, session.primaryUri, session.sessionId⟩] := by
  have known : Store.getAppId session.primaryUri ≠ .unknown := by
    rw [CastSession.primaryUri, getAppId_scheme session.known]
    exact session.known
  have requested := @requestMediaData_known store session.primaryUri known session.sessionId
  exact ⟨congrArg Prod.fst requested, congrArg (fun result => result.2.1) requested⟩

theorem begun_app : (session.begun store).appId = session.app := by
  rw [(begun_eq session store).1]
  exact getAppId_scheme session.known session.address

theorem listing_gapless : Gapless (listing session.entries).streamInfs := by
  refine List.pairwise_of_forall_mem_list fun location member _ _ _ => ?_
  obtain ⟨entry, -, found⟩ := List.mem_filterMap.mp member
  cases entry with
  | stream attributes uri =>
    obtain rfl := Option.some.inj found
    rfl
  | media items => cases found
  | other line => cases found

theorem documents_adjusted : session.uris.reverse.zip ((session.uris.reverse.map session.client).map adjust) =
    session.uris.reverse.map fun uri => (uri, session.adjusted uri) := by
  have each : ∀ uri ∈ session.uris.reverse, (adjust ∘ session.client) uri = session.adjusted uri := by
    intro uri member
    rw [Function.comp_apply, adjust, (session.answers uri (List.mem_reverse.mp member)).1, Option.getD_some]
  have images : session.uris.reverse.map (adjust ∘ session.client) = session.uris.reverse.map session.adjusted :=
    List.map_congr_left each
  rw [List.map_map, images, List.map_prod_left_eq_zip]

theorem collected_uris : Store.collectedUris (rewriting playlist) session.document = session.uris := by
  have parsed : (rewriting playlist).hlsparseMaster session.document = some (listing session.entries) :=
    playlist_listed session.entries (fun entry member => (session.proper entry member).1) session.filled session.short
  rw [collectedUris_parsed parsed, session.gapless.every, (listing_gapless session).every]
  rfl

theorem uris_secondary {uri : Bytes} (member : uri ∈ session.uris) : (session.begun store).Secondary uri := by
  obtain ⟨address, rfl, agrees, master, index⟩ := session.listed uri member
  have app := begun_app session store
  have known : (session.begun store).appId ≠ .unknown := app ▸ session.known
  rw [← app] at agrees master index ⊢
  obtain ⟨path, filled, extracted, -⟩ := path_of_agrees known agrees
  exact ⟨⟨master, index⟩, path, filled, extracted⟩

/-- What has been stored when the session is over. -/
theorem talk_stored :
    let begun := session.begun store
    let answers := (session.primaryUri, begun.adjustPrimaryMediaData session.document) ::
      session.uris.reverse.map fun uri => (uri, session.adjusted uri)
    (session.talk store).outstanding = [] ∧ (session.talk store).locations.getLast? = some (.ok begun.primaryUri) ∧
      ∀ path, (session.talk store).store.mediaData.find? path = SortedMap.lastValue path (answers.filterMap begun.entry) := by
  intro begun answers
  obtain ⟨begins, asked⟩ := begun_eq session store
  have app : begun.appId = session.app := begun_app session store
  have known : begun.appId ≠ .unknown := app ▸ session.known
  have path : ∃ path, path ≠ [] ∧ begun.extractUriPath session.primaryUri = some path := extractUriPath_of_contains session.named known
  obtain ⟨path, filled, extracted⟩ := path
  have empty : begun.uriStack = [] := congrArg Store.uriStack begins
  obtain ⟨kept, here⟩ : ∃ kept : Store, kept = { begun with uriStack := session.uris.reverse }.keep
      (session.primaryUri, begun.adjustPrimaryMediaData session.document) := ⟨_, rfl⟩
  have first : session.talk store = proceed (rewriting playlist) kept (session.uris.reverse.map session.client) := by
    have step := @converse_primary (rewriting playlist) begun ⟨1, session.primaryUri, session.sessionId⟩ path session.document
      (primary_of_contains session.text session.named) filled extracted empty (session.uris.reverse.map session.client)
    rw [collected_uris, ← here] at step
    rw [CastSession.talk, asked]
    exact step
  have expands : ∀ data ∈ session.uris.reverse.map session.client, adjustSecondaryMediaData data = some (adjust data) := by
    refine List.forall_mem_map.mpr fun uri member => ?_
    rw [adjust, (session.answers uri (List.mem_reverse.mp member)).1, Option.getD_some]
  have secondary : ∀ uri ∈ session.uris.reverse, kept.Secondary uri := by
    intro uri member
    have there := uris_secondary session store (List.mem_reverse.mp member)
    exact there.congr (by rw [here]; rfl)
  have number : kept.requestId = UInt32.ofNat 2 := by
    rw [here]
    exact congrArg Store.requestId begins
  have rest := @proceed_completes ⟨playlist, fun data => some (adjust data)⟩ adjust (fun _ => rfl) session.uris.reverse
    (session.uris.reverse.map session.client) (List.length_map ..) kept 2 (by rw [here]; rfl) number secondary
  rw [← proceed_total playlist expands, ← first, documents_adjusted] at rest
  refine ⟨rest.outstanding, ?_, fun path => ?_⟩
  · rw [rest.locations, List.getLast?_concat, here]
    rfl
  · have entries : kept.entry = begun.entry := entry_congr (by rw [here]; rfl)
    have before : kept.mediaData = SortedMap.empty.insertAll (begun.entry (session.primaryUri,
        begun.adjustPrimaryMediaData session.document)).toList := by
      have data : begun.mediaData = .empty := congrArg Store.mediaData begins
      rw [here, ← data]
      rfl
    rw [rest.stored, entries, before, ← insertAll_filterMap, SortedMap.find?_insertAll, SortedMap.find?_empty, Option.or_none]

/-- The path of a URI of the session, where no other one has it, serves what the URI was answered with. -/
theorem served_of_unique {uri path data : Bytes} (extracted : (session.begun store).extractUriPath uri = some path) (filled : data ≠ [])
    (fits : data.length < 2 ^ 63)
    (answer : (uri, data) ∈ (session.primaryUri, (session.begun store).adjustPrimaryMediaData session.document) ::
      session.uris.reverse.map fun uri => (uri, session.adjusted uri))
    (unique : ∀ other ∈ (session.primaryUri, (session.begun store).adjustPrimaryMediaData session.document) ::
      session.uris.reverse.map (fun uri => (uri, session.adjusted uri)),
        (session.begun store).extractUriPath other.1 = some path → other = (uri, data)) :
    MediaHttp.Serves (session.talk store).store path data := by
  refine MediaHttp.serves_of_stored ?_ filled fits
  rw [(talk_stored session store).2.2]
  refine lastValue_of_unique (List.mem_filterMap.mpr ⟨_, answer, ?_⟩) fun other member => ?_
  · rw [Store.entry, if_neg filled, extracted]
    rfl
  · obtain ⟨given, there, entry⟩ := List.mem_filterMap.mp member
    rw [Store.entry] at entry
    split_ifs at entry
    obtain ⟨found, same, pair⟩ := Option.map_eq_some_iff.mp entry
    obtain ⟨rfl, rfl⟩ := Prod.mk.inj pair
    rw [unique given there same]

/-- No URI that is listed is the primary one. -/
theorem primary_not_listed : session.primaryUri ∉ session.uris := by
  intro member
  obtain ⟨_, _, _, master, index⟩ := session.listed _ member
  have named := session.named
  rw [CastSession.primaryUri] at master index
  rw [master, index] at named
  cases named

theorem paths_apart {uri other : Bytes} (member : uri ∈ session.uris) (member' : other ∈ session.primaryUri :: session.uris)
    (same : (session.begun store).extractUriPath other = (session.begun store).extractUriPath uri) : other = uri := by
  have app : (session.begun store).appId = (serving session.app).appId := begun_app session store
  rw [extractUriPath_congr app, extractUriPath_congr app] at same
  exact session.apart uri member other member' same

theorem begun_root (port : UInt16) :
    (session.begun (store.setStoreRoot port)).setStoreRoot port = session.begun (store.setStoreRoot port) := by
  rw [(begun_eq session _).1]
  rfl

end Sessions

/-- A rendition and a stream, whose playlists are the same. -/
def twoListedEntries : List Entry :=
  [.media [.word (ascii "TYPE=AUDIO"), .quoted (ascii "URI") (ascii "mlhls://localhost/a.m3u8")],
    .stream (ascii ":BANDWIDTH=1") (ascii "mlhls://localhost/b.m3u8")]

theorem twoListed_uris : (listing twoListedEntries).uris = [ascii "mlhls://localhost/a.m3u8", ascii "mlhls://localhost/b.m3u8"] := by
  decide +kernel

def twoListedSession : CastSession where
  app := .youtube
  address := ascii "localhost/master.m3u8"
  sessionId := ascii "A"
  entries := twoListedEntries
  client := fun _ => ascii "#EXTM3U"
  adjusted := fun _ => ascii "#EXTM3U"
  known := AppId.noConfusion
  text := by decide +kernel
  named := by decide +kernel
  primary := ⟨ascii "localhost", by decide, ascii "/master.m3u8", rfl, rfl, by decide +kernel⟩
  filled := List.cons_ne_nil _ _
  short := by decide +kernel
  proper := by
    have word : ascii "TYPE=AUDIO" ∈ words := by decide
    have address : ∀ byte ∈ ascii "mlhls://localhost/a.m3u8", byte ≠ 34 ∧ isEnd byte = false := by decide +kernel
    have items : ∀ item ∈ [Written.word (ascii "TYPE=AUDIO"), .quoted (ascii "URI") (ascii "mlhls://localhost/a.m3u8")], item.Proper :=
      List.forall_mem_cons.mpr ⟨word, List.forall_mem_singleton.mpr ⟨by decide, address⟩⟩
    exact List.forall_mem_cons.mpr ⟨⟨items, trivial⟩, List.forall_mem_singleton.mpr
      ⟨⟨⟨by decide +kernel, by decide, by decide⟩, by decide, by decide +kernel⟩, by unfold Entry.Kept Untouched; decide +kernel⟩⟩
  gapless := by
    unfold Gapless
    decide +kernel
  listed := by
    rw [twoListed_uris]
    refine List.forall_mem_cons.mpr ⟨⟨ascii "localhost/a.m3u8", rfl, ⟨ascii "localhost", by decide, ascii "/a.m3u8", rfl, rfl,
      by decide +kernel⟩, by decide +kernel⟩, List.forall_mem_singleton.mpr ⟨ascii "localhost/b.m3u8", rfl,
      ⟨ascii "localhost", by decide, ascii "/b.m3u8", rfl, rfl, by decide +kernel⟩, by decide +kernel⟩⟩
  apart := by
    rw [twoListed_uris]
    decide +kernel
  answers := by
    have kept : adjustSecondaryMediaData (ascii "#EXTM3U") = some (ascii "#EXTM3U") := by decide +kernel
    exact fun _ _ => ⟨kept, by decide, by decide⟩

end Apsdk.MediaDataStore
