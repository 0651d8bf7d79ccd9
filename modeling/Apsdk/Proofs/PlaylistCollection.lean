import Apsdk.MediaDataStore

/-! The two walks over a master playlist stop at the first entry without a URI. They
collect every rendition just when no entry that has a URI comes after one without. -/

namespace Apsdk.MediaDataStore
open Library

/-- No entry with a URI comes after one without. -/
def Gapless (entries : List (Option Bytes)) : Prop :=
  entries.Pairwise fun earlier later => later.isSome = true → earlier.isSome = true

/-- The URI of every media entry that has one, then that of every stream entry that has one. -/
def MasterPlaylist.uris (playlist : MasterPlaylist) : List Bytes := playlist.media.filterMap id ++ playlist.streamInfs.filterMap id

namespace Store

/-- The store when some URIs have been pushed, one after the other. -/
def pushing (store : Store) (uris : List Bytes) : Store := { store with uriStack := uris.reverse ++ store.uriStack }

/-- The part of `process_media_data` behind the collecting of URIs. -/
def conclude (store : Store) (connected : Bool) (uri mediaData : Bytes) : Store × List FcupRequest × Except Fault Bytes :=
  match store.extractUriPath uri with
  | none => (store, [], .error .outOfRange)
  | some path =>
    let store := if path ≠ [] ∧ mediaData ≠ [] then store.addMediaData path mediaData else store
    let (store, sent, location) := store.nextRequest connected
    (store, sent, .ok location)

end Store

section Walks
variable {entries : List (Option Bytes)}

theorem filterMap_takeWhile_length_le (entries : List (Option Bytes)) :
    ((entries.takeWhile Option.isSome).filterMap id).length ≤ (entries.filterMap id).length :=
  ((List.takeWhile_prefix _).sublist.filterMap id).length_le

/-- A walk collects as many URIs as there are only if it stops behind the last of them. -/
theorem gapless_of_length (every : ((entries.takeWhile Option.isSome).filterMap id).length = (entries.filterMap id).length) :
    Gapless entries := by
  induction entries with
  | nil => exact .nil
  | cons entry entries ih =>
    cases entry with
    | none =>
      have none_later : entries.filterMap id = [] := List.length_eq_zero_iff.mp every.symm
      refine List.pairwise_cons.mpr ⟨fun later member present => ?_, ?_⟩
      · obtain ⟨uri, rfl⟩ := Option.isSome_iff_exists.mp present
        have found : uri ∈ entries.filterMap id := List.mem_filterMap.mpr ⟨some uri, member, rfl⟩
        rw [none_later] at found
        cases found
      · refine ih ?_
        have bound := filterMap_takeWhile_length_le entries
        rw [none_later] at bound ⊢
        exact Nat.le_zero.mp bound
    | some uri => exact List.pairwise_cons.mpr ⟨fun _ _ _ => rfl, ih (Nat.succ.inj every)⟩

theorem Gapless.every (gapless : Gapless entries) : (entries.takeWhile Option.isSome).filterMap id = entries.filterMap id := by
  induction entries with
  | nil => rfl
  | cons entry entries ih =>
    obtain ⟨first, others⟩ := List.pairwise_cons.mp gapless
    cases entry with
    | none =>
      have absent : entries.filterMap id = [] := by
        refine List.filterMap_eq_nil_iff.mpr fun later member => ?_
        cases later with
        | none => rfl
        | some uri => cases first (some uri) member rfl
      exact absent.symm
    | some uri => exact congrArg (uri :: ·) (ih others)

end Walks

section Collection
variable {rewriting : Rewriting} {store : Store} {data : Bytes} {playlist : MasterPlaylist}

theorem collectedUris_parsed (parsed : rewriting.hlsparseMaster data = some playlist) :
    Store.collectedUris rewriting data = (playlist.media.takeWhile Option.isSome).filterMap id ++
      (playlist.streamInfs.takeWhile Option.isSome).filterMap id := by
  rw [Store.collectedUris, parsed]
  exact List.filterMap_append

theorem collectedUris_length_iff (parsed : rewriting.hlsparseMaster data = some playlist) :
    (Store.collectedUris rewriting data).length = playlist.uris.length ↔ Gapless playlist.media ∧ Gapless playlist.streamInfs := by
  have media := filterMap_takeWhile_length_le playlist.media
  have streams := filterMap_takeWhile_length_le playlist.streamInfs
  rw [collectedUris_parsed parsed, MasterPlaylist.uris, List.length_append, List.length_append]
  constructor
  · intro every
    exact ⟨gapless_of_length (by omega), gapless_of_length (by omega)⟩
  · intro ⟨gapless, gapless'⟩
    rw [gapless.every, gapless'.every]

/-- The requests that are left show how many URIs there were. -/
theorem nextRequest_stack (store : Store) (connected : Bool) :
    (store.nextRequest connected).1.uriStack = store.uriStack.tail ∧
      ((store.nextRequest connected).1.requestId = store.requestId ↔ store.uriStack = []) := by
  unfold Store.nextRequest
  cases pending : store.uriStack with
  | nil => exact ⟨pending, iff_of_true rfl rfl⟩
  | cons next rest =>
    refine ⟨rfl, iff_of_false (fun same => ?_) (nomatch ·)⟩
    have step : store.requestId + 1 = store.requestId := same
    simp at step

/-- The stack and the request number tell stacks of different heights apart. -/
theorem nextRequest_height {store other : Store} {connected : Bool} (numbers : store.requestId = other.requestId)
    (same : (store.nextRequest connected).1 = (other.nextRequest connected).1) :
    store.uriStack.length = other.uriStack.length := by
  obtain ⟨stack, number⟩ := nextRequest_stack store connected
  obtain ⟨stack', number'⟩ := nextRequest_stack other connected
  rw [same] at stack number
  have tails : store.uriStack.tail.length = other.uriStack.tail.length := by rw [← stack, ← stack']
  rw [numbers, number'] at number
  rw [List.length_tail, List.length_tail] at tails
  have empty := number
  rw [← List.length_eq_zero_iff, ← List.length_eq_zero_iff] at empty
  omega

theorem conclude_length {connected : Bool} {uri mediaData : Bytes} {first second : List Bytes}
    (same : (store.pushing first).conclude connected uri mediaData = (store.pushing second).conclude connected uri mediaData) :
    first.length = second.length := by
  have heights : (store.pushing first).uriStack.length = (store.pushing second).uriStack.length := by
    have paths : (store.pushing first).extractUriPath uri = (store.pushing second).extractUriPath uri := rfl
    unfold Store.conclude at same
    rw [paths] at same
    cases extracted : (store.pushing second).extractUriPath uri with
    | none =>
      rw [extracted] at same
      exact congrArg (fun outcome => outcome.1.uriStack.length) same
    | some path =>
      rw [extracted] at same
      by_cases kept : path ≠ [] ∧ mediaData ≠ []
      · simp only [if_pos kept] at same
        obtain ⟨stores, -⟩ := Prod.mk.inj same
        exact @nextRequest_height ((store.pushing first).addMediaData path mediaData)
          ((store.pushing second).addMediaData path mediaData) connected rfl stores
      · simp only [if_neg kept] at same
        obtain ⟨stores, -⟩ := Prod.mk.inj same
        exact @nextRequest_height (store.pushing first) (store.pushing second) connected rfl stores
  simp only [Store.pushing, List.length_append, List.length_reverse] at heights
  omega

/-- What is done with a master playlist that has been parsed is what would be done with all of its URIs, just when both
of its lists are without gaps. -/
theorem renditions_collected_iff (rewriting : Rewriting) (store : Store) (connected : Bool) (uri data : Bytes)
    (playlist : MasterPlaylist) (primary : Store.isPrimaryDataUri uri = true)
    (parsed : rewriting.hlsparseMaster data = some playlist) :
    store.processMediaData rewriting connected uri data =
        (store.pushing playlist.uris).conclude connected uri (store.adjustPrimaryMediaData data) ↔
      Gapless playlist.media ∧ Gapless playlist.streamInfs := by
  have actual : store.processMediaData rewriting connected uri data =
      (store.pushing (Store.collectedUris rewriting data)).conclude connected uri (store.adjustPrimaryMediaData data) := by
    simp only [Store.processMediaData, primary, if_true]
    rfl
  rw [actual]
  constructor
  · intro same
    exact (collectedUris_length_iff parsed).mp (conclude_length same)
  · intro ⟨media, streams⟩
    rw [collectedUris_parsed parsed, media.every, streams.every]
    rfl

/-- A parser that finds two media entries, the first one without a URI, and a stream. -/
def captionsFirst : Rewriting := ⟨fun _ => some ⟨[none, some (ascii "audio.m3u8")], [some (ascii "video.m3u8")]⟩, some⟩

/-- A parser that finds a URI for every entry. -/
def allListed : Rewriting := ⟨fun _ => some ⟨[some (ascii "audio.m3u8")], [some (ascii "video.m3u8")]⟩, some⟩

theorem all_listed_collected :
    (Store.new 1).processMediaData allListed true (ascii "mlhls://localhost/master.m3u8") (ascii "#EXTM3U") =
        ((Store.new 1).pushing [ascii "audio.m3u8", ascii "video.m3u8"]).conclude true (ascii "mlhls://localhost/master.m3u8")
          ((Store.new 1).adjustPrimaryMediaData (ascii "#EXTM3U")) ↔
      Gapless [some (ascii "audio.m3u8")] ∧ Gapless [some (ascii "video.m3u8")] :=
  renditions_collected_iff allListed (Store.new 1) true (ascii "mlhls://localhost/master.m3u8") (ascii "#EXTM3U")
    ⟨[some (ascii "audio.m3u8")], [some (ascii "video.m3u8")]⟩ (by decide +kernel) rfl

/-- The audio behind an entry without a URI is not asked for. -/
theorem audio_behind_captions_skipped :
    Store.collectedUris captionsFirst (ascii "#EXTM3U") = [ascii "video.m3u8"] ∧
      (Store.new 1).processMediaData captionsFirst true (ascii "mlhls://localhost/master.m3u8") (ascii "#EXTM3U") ≠
        ((Store.new 1).pushing [ascii "audio.m3u8", ascii "video.m3u8"]).conclude true (ascii "mlhls://localhost/master.m3u8")
          ((Store.new 1).adjustPrimaryMediaData (ascii "#EXTM3U")) := by
  refine ⟨rfl, fun same => ?_⟩
  have heights := congrArg (fun outcome => outcome.1.uriStack.length) same
  revert heights
  decide +kernel

end Collection

end Apsdk.MediaDataStore
