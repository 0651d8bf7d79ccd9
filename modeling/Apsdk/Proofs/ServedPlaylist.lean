import Apsdk.Proofs.HlsDocuments
import Apsdk.Proofs.PlayerLocations

/-! The master playlist that the player is served. The rewriting goes through a document piece
by piece, so that the document still lists what it listed, in the form in which the player asks for it. -/

namespace Apsdk.HlsParser
open Library MediaDataStore

/-- The literals that the store replaces in one document or another. -/
def literals : List Bytes := SCHEME_LIST ++ HOST_LIST

/-- A text in which nothing is replaced. -/
def Untouched (text : Bytes) : Prop := ∀ literal ∈ literals, contains literal text = false

/-- A replacement neither closes a quote nor ends a line. -/
structure Clean (replacement : Bytes) : Prop where
  filled : replacement ≠ []
  plain : ∀ byte ∈ replacement, byte ≠ 34 ∧ isEnd byte = false

/-- An attribute whose text is rewritten. -/
def Written.rewrite (rewrite : Bytes → Bytes) : Written → Written
  | word text => word text
  | quoted name text => quoted name (rewrite text)

namespace Entry

/-- A line whose texts and URIs are rewritten. -/
def rewrite (rewrite : Bytes → Bytes) : Entry → Entry
  | stream attributes uri => stream attributes (rewrite uri)
  | media items => media (items.map (Written.rewrite rewrite))
  | other line => other line

/-- Nothing is replaced but in the texts of renditions and in the URIs of streams. -/
def Kept : Entry → Prop
  | stream attributes _ => Untouched attributes
  | media _ => True
  | other line => Untouched line

end Entry

section Pieces
variable {alternatives : List Bytes} {replacement : Bytes}

theorem literals_solid (known : alternatives ⊆ literals) : ∀ literal ∈ alternatives, literal ≠ [] := by
  have solid : ∀ literal ∈ literals, literal ≠ [] := by decide
  exact fun literal member => solid literal (known member)

/-- No literal has a byte at which a document is taken apart. -/
theorem literals_foreign (known : alternatives ⊆ literals) {stop : UInt8} (stops : stop = 10 ∨ stop = 13 ∨ stop = 34) :
    ∀ literal ∈ alternatives, stop ∉ literal := by
  have foreign : ∀ literal ∈ literals, 10 ∉ literal ∧ 13 ∉ literal ∧ 34 ∉ literal := by decide
  intro literal member
  obtain ⟨newline, carriage, quote⟩ := foreign literal (known member)
  rcases stops with rfl | rfl | rfl
  · exact newline
  · exact carriage
  · exact quote

theorem apart_of_literals (known : alternatives ⊆ literals) {stretch : Bytes} (apart : Apart literals stretch) :
    Apart alternatives stretch :=
  fun byte inside literal member => apart byte inside literal (known member)

theorem replaceAll_untouched (known : alternatives ⊆ literals) {text : Bytes} (untouched : Untouched text) :
    replaceAll alternatives replacement text = text := by
  refine replaceAll_of_none (literals_solid known) ?_ replacement
  exact (matchesIn_eq_zero_iff (literals_solid known) text).mpr fun literal member => untouched literal (known member)

theorem words_apart : ∀ word ∈ words, Apart literals word := by decide +kernel

theorem names_apart : ∀ name ∈ ascii "URI" :: textNames, Apart literals (name ++ [61, 34]) := by decide +kernel

theorem replaceAll_item (known : alternatives ⊆ literals) {item : Written} (proper : item.Proper) (rest : Bytes) :
    replaceAll alternatives replacement (item.text ++ rest) =
      (item.rewrite (replaceAll alternatives replacement)).text ++ replaceAll alternatives replacement rest := by
  cases item with
  | word text => exact replaceAll_stretch (apart_of_literals known (words_apart text proper)) replacement rest
  | quoted name text =>
    have whole : ∀ text rest, (Written.quoted name text).text ++ rest = (name ++ [61, 34]) ++ (text ++ 34 :: rest) := by
      intro text rest
      simp [Written.text]
    have quote : ∀ literal ∈ alternatives, 34 ∉ literal := literals_foreign known (.inr (.inr rfl))
    rw [Written.rewrite, whole, whole, replaceAll_stretch (apart_of_literals known (names_apart name proper.1)),
      replaceAll_stop (literals_solid known) quote]

theorem replaceAll_items (known : alternatives ⊆ literals) {items : List Written} (proper : ∀ item ∈ items, item.Proper)
    (rest : Bytes) :
    replaceAll alternatives replacement (attributesText items ++ 10 :: rest) =
      attributesText (items.map (Written.rewrite (replaceAll alternatives replacement))) ++
        10 :: replaceAll alternatives replacement rest := by
  have newline : Apart literals [10] := by decide +kernel
  have comma : Apart literals [44] := by decide +kernel
  induction items with
  | nil => exact replaceAll_stretch (apart_of_literals known newline) replacement rest
  | cons item items ih =>
    obtain ⟨here, others⟩ := List.forall_mem_cons.mp proper
    cases items with
    | nil =>
      rw [attributesText, replaceAll_item known here]
      exact congrArg _ (replaceAll_stretch (apart_of_literals known newline) replacement rest)
    | cons second items =>
      have whole : ∀ item second items rest, attributesText (item :: second :: items) ++ 10 :: rest =
          item.text ++ ([44] ++ (attributesText (second :: items) ++ 10 :: rest)) := by
        intro item second items rest
        simp [attributesText_cons]
      have later := ih others
      rw [List.map_cons] at later
      rw [List.map_cons, List.map_cons, whole, whole, replaceAll_item known here,
        replaceAll_stretch (apart_of_literals known comma), later]

/-- A line is rewritten on its own. -/
theorem replaceAll_entry (known : alternatives ⊆ literals) {entry : Entry} (proper : entry.Proper) (kept : entry.Kept) (rest : Bytes) :
    replaceAll alternatives replacement (entry.text ++ rest) =
      (entry.rewrite (replaceAll alternatives replacement)).text ++ replaceAll alternatives replacement rest := by
  have newline : ∀ literal ∈ alternatives, 10 ∉ literal := literals_foreign known (.inl rfl)
  have tags : Apart literals (ascii "#EXT-X-STREAM-INF") ∧ Apart literals (ascii "#EXT-X-MEDIA" ++ [58]) := by decide +kernel
  cases entry with
  | stream attributes uri =>
    have whole : ∀ uri rest, (Entry.stream attributes uri).text ++ rest =
        ascii "#EXT-X-STREAM-INF" ++ (attributes ++ 10 :: (uri ++ 10 :: rest)) := by
      intro uri rest
      simp [Entry.text]
    rw [Entry.rewrite, whole, whole, replaceAll_stretch (apart_of_literals known tags.1),
      replaceAll_stop (literals_solid known) newline, replaceAll_stop (literals_solid known) newline,
      replaceAll_untouched known kept]
  | media items =>
    have whole : ∀ items rest, (Entry.media items).text ++ rest =
        (ascii "#EXT-X-MEDIA" ++ [58]) ++ (attributesText items ++ 10 :: rest) := by
      intro items rest
      simp [Entry.text]
    rw [Entry.rewrite, whole, whole, replaceAll_stretch (apart_of_literals known tags.2), replaceAll_items known proper]
  | other line =>
    have whole : ∀ rest, (Entry.other line).text ++ rest = line ++ 10 :: rest := by
      intro rest
      simp [Entry.text]
    rw [Entry.rewrite, whole, whole, replaceAll_stop (literals_solid known) newline, replaceAll_untouched known kept]

theorem replaceAll_entries (known : alternatives ⊆ literals) {entries : List Entry} (proper : ∀ entry ∈ entries, entry.Proper)
    (kept : ∀ entry ∈ entries, entry.Kept) :
    replaceAll alternatives replacement (entries.flatMap Entry.text) =
      (entries.map (Entry.rewrite (replaceAll alternatives replacement))).flatMap Entry.text := by
  induction entries with
  | nil => rfl
  | cons entry entries ih =>
    obtain ⟨here, others⟩ := List.forall_mem_cons.mp proper
    obtain ⟨kept, kept'⟩ := List.forall_mem_cons.mp kept
    rw [List.flatMap_cons, replaceAll_entry known here kept, ih others kept']
    rfl

end Pieces

section Rewritten
variable {alternatives : List Bytes} {replacement : Bytes}

theorem clean_text (known : alternatives ⊆ literals) (clean : Clean replacement) {text : Bytes}
    (plain : ∀ byte ∈ text, byte ≠ 34 ∧ isEnd byte = false) :
    ∀ byte ∈ replaceAll alternatives replacement text, byte ≠ 34 ∧ isEnd byte = false := by
  intro byte member
  rcases of_mem_replaceAll (literals_solid known) member with there | here
  · exact plain byte there
  · exact clean.plain byte here

theorem replaceAll_eq_nil_iff (known : alternatives ⊆ literals) (clean : Clean replacement) (text : Bytes) :
    replaceAll alternatives replacement text = [] ↔ text = [] := by
  constructor
  · contrapose!
    exact replaceAll_ne_nil (literals_solid known) clean.filled
  · rintro rfl
    rfl

theorem withoutReturn_replaceAll (known : alternatives ⊆ literals) (clean : Clean replacement) (uri : Bytes) :
    withoutReturn (replaceAll alternatives replacement uri) = replaceAll alternatives replacement (withoutReturn uri) := by
  have solid := literals_solid known
  have carriage : ∀ literal ∈ alternatives, 13 ∉ literal := literals_foreign known (.inr (.inl rfl))
  unfold withoutReturn
  by_cases last : uri.getLast? = some 13
  · obtain ⟨front, rfl⟩ := List.getLast?_eq_some_iff.mp last
    have split : replaceAll alternatives replacement (front ++ [13]) = replaceAll alternatives replacement front ++ [13] :=
      replaceAll_stop solid carriage front []
    rw [if_pos last, List.dropLast_concat, split, List.getLast?_concat, if_pos rfl, List.dropLast_concat]
  · have foreign : (13 : UInt8) ∉ replacement := fun member => absurd (clean.plain 13 member).2 (by decide)
    rw [if_neg last, if_neg fun last' => last (getLast?_of_replaceAll solid clean.filled foreign last')]

theorem rewrite_proper (known : alternatives ⊆ literals) (clean : Clean replacement) {entry : Entry} (proper : entry.Proper) :
    (entry.rewrite (replaceAll alternatives replacement)).Proper := by
  cases entry with
  | stream attributes uri =>
    obtain ⟨plain, filled, text⟩ := proper
    refine ⟨plain, ?_, fun byte member => ?_⟩
    · rw [withoutReturn_replaceAll known clean]
      exact (replaceAll_eq_nil_iff known clean _).not.mpr filled
    · rcases of_mem_replaceAll (literals_solid known) member with there | here
      · exact text byte there
      · have ends := (clean.plain byte here).2
        constructor
        · rintro rfl
          cases ends
        · rintro rfl
          cases ends
  | media items =>
    refine List.forall_mem_map.mpr fun item member => ?_
    have here : item.Proper := proper item member
    cases item with
    | word text => exact here
    | quoted name text => exact ⟨here.1, clean_text known clean here.2⟩
  | other line => exact proper

theorem rewrite_uri (known : alternatives ⊆ literals) (clean : Clean replacement) (item : Written) :
    (item.rewrite (replaceAll alternatives replacement)).uri = item.uri.map (replaceAll alternatives replacement) := by
  cases item with
  | word text => rfl
  | quoted name text =>
    have empty := replaceAll_eq_nil_iff known clean text
    by_cases given : name = ascii "URI" ∧ text ≠ []
    · simp [Written.rewrite, Written.uri, given, empty]
    · simp only [Written.rewrite, Written.uri, ne_eq, empty]
      rw [if_neg given, if_neg given]
      rfl

theorem rewrite_rendition (known : alternatives ⊆ literals) (clean : Clean replacement) (entry : Entry) :
    (entry.rewrite (replaceAll alternatives replacement)).rendition =
      entry.rendition.map (Option.map (replaceAll alternatives replacement)) := by
  cases entry with
  | stream attributes uri => rfl
  | other line => rfl
  | media items =>
    have uris : (items.map (Written.rewrite (replaceAll alternatives replacement))).filterMap Written.uri =
        (items.filterMap Written.uri).map (replaceAll alternatives replacement) := by
      rw [List.filterMap_map, List.map_filterMap]
      exact List.filterMap_congr fun item _ => rewrite_uri known clean item
    rw [Entry.rewrite, Entry.rendition, Entry.rendition, uris, List.getLast?_map]
    rfl

theorem rewrite_location (known : alternatives ⊆ literals) (clean : Clean replacement) (entry : Entry) :
    (entry.rewrite (replaceAll alternatives replacement)).location =
      entry.location.map (Option.map (replaceAll alternatives replacement)) := by
  cases entry with
  | stream attributes uri =>
    rw [Entry.rewrite, Entry.location, Entry.location, withoutReturn_replaceAll known clean]
    rfl
  | other line => rfl
  | media items => rfl

theorem rewrite_kept {entry : Entry} (kept : entry.Kept) (rewrite : Bytes → Bytes) : (entry.rewrite rewrite).Kept := by
  cases entry with
  | stream attributes uri => exact kept
  | media items => exact kept
  | other line => exact kept

end Rewritten

section Served

/-- The renditions and the streams of a document. -/
def listing (entries : List Entry) : MasterPlaylist := ⟨entries.filterMap Entry.rendition, entries.filterMap Entry.location⟩

/-- A playlist with other URIs. -/
def relocate (rewrite : Bytes → Bytes) (playlist : MasterPlaylist) : MasterPlaylist :=
  ⟨playlist.media.map (Option.map rewrite), playlist.streamInfs.map (Option.map rewrite)⟩

/-- A rewriting that goes through a document line by line. -/
structure Linewise (rewrite : Bytes → Bytes) : Prop where
  text : ∀ entries : List Entry, (∀ entry ∈ entries, entry.Proper ∧ entry.Kept) →
    ∃ entries' : List Entry, rewrite (entries.flatMap Entry.text) = entries'.flatMap Entry.text ∧
      (∀ entry ∈ entries', entry.Proper ∧ entry.Kept) ∧ listing entries' = relocate rewrite (listing entries) ∧
      entries'.length = entries.length

theorem linewise_id : Linewise id := by
  refine ⟨fun entries proper => ⟨entries, rfl, proper, ?_, rfl⟩⟩
  simp [relocate]

theorem linewise_replaceAll {alternatives : List Bytes} {replacement : Bytes} (known : alternatives ⊆ literals)
    (clean : Clean replacement) : Linewise (replaceAll alternatives replacement) := by
  refine ⟨fun entries proper => ⟨entries.map (Entry.rewrite (replaceAll alternatives replacement)), ?_, ?_, ?_, ?_⟩⟩
  · exact replaceAll_entries known (fun entry member => (proper entry member).1) fun entry member => (proper entry member).2
  · refine List.forall_mem_map.mpr fun entry member => ?_
    obtain ⟨proper, kept⟩ := proper entry member
    exact ⟨rewrite_proper known clean proper, rewrite_kept kept _⟩
  · simp only [listing, relocate, List.filterMap_map, List.map_filterMap, Function.comp_def, rewrite_rendition known clean,
      rewrite_location known clean]
  · exact List.length_map ..

theorem Linewise.comp {first second : Bytes → Bytes} (linewise : Linewise first) (linewise' : Linewise second) :
    Linewise (second ∘ first) := by
  refine ⟨fun entries proper => ?_⟩
  obtain ⟨entries₁, text₁, proper₁, listed₁, length₁⟩ := linewise.text entries proper
  obtain ⟨entries₂, text₂, proper₂, listed₂, length₂⟩ := linewise'.text entries₁ proper₁
  refine ⟨entries₂, ?_, proper₂, ?_, length₂.trans length₁⟩
  · rw [Function.comp_apply, text₁, text₂]
  · rw [listed₂, listed₁]
    simp only [relocate, List.map_map, Option.map_comp_map]

theorem clean_http : Clean HTTP_SCHEME := ⟨by decide, by decide +kernel⟩

theorem clean_host (store : Store) (port : UInt16) : Clean (store.setStoreRoot port).host := by
  refine ⟨List.cons_ne_nil _ _, fun byte member => ?_⟩
  rcases List.mem_append.mp member with name | digit
  · have plain : ∀ byte ∈ ascii "localhost:", byte ≠ 34 ∧ isEnd byte = false := by decide +kernel
    exact plain byte name
  · rw [ascii_toString] at digit
    obtain ⟨low, high⟩ := decimal_digits port.toNat byte digit
    constructor
    · rintro rfl
      exact absurd low (by decide)
    · unfold isEnd
      refine decide_eq_false ?_
      rintro (rfl | rfl | rfl)
      · exact absurd low (by decide)
      · exact absurd low (by decide)
      · exact absurd low (by decide)

/-- What the store makes of a master playlist. -/
theorem linewise_store (store : Store) (port : UInt16) : Linewise (store.setStoreRoot port).adjustPrimaryMediaData := by
  have host := clean_host store port
  have app : (store.setStoreRoot port).appId = store.appId := rfl
  cases known : store.appId with
  | youtube =>
    have unfolded : (store.setStoreRoot port).adjustPrimaryMediaData =
        replaceAll HOST_LIST (store.setStoreRoot port).host ∘ replaceAll [MLHLS_SCHEME] HTTP_SCHEME := by
      funext data
      rw [Store.adjustPrimaryMediaData, app, known]
      rfl
    rw [unfolded]
    exact (linewise_replaceAll (by decide) clean_http).comp (linewise_replaceAll (by decide) host)
  | netflix =>
    have unfolded : (store.setStoreRoot port).adjustPrimaryMediaData =
        replaceAll [NFHLS_SCHEME] (HTTP_SCHEME ++ (store.setStoreRoot port).host ++ [47]) := by
      funext data
      rw [Store.adjustPrimaryMediaData, app, known]
      rfl
    rw [unfolded]
    refine linewise_replaceAll (by decide) ⟨List.append_ne_nil_of_left_ne_nil (List.cons_ne_nil _ _) _, fun byte member => ?_⟩
    rcases List.mem_append.mp member with there | slash
    · rcases List.mem_append.mp there with http | host_
      · exact clean_http.plain byte http
      · exact host.plain byte host_
    · rw [List.mem_singleton.mp slash]
      decide
  | unknown =>
    have unfolded : (store.setStoreRoot port).adjustPrimaryMediaData = id := by
      funext data
      rw [Store.adjustPrimaryMediaData, app, known]
      rfl
    rw [unfolded]
    exact linewise_id

/-- The document that the player is served lists the locations of what the client's document lists, in the same order. -/
theorem served_playlist (store : Store) (port : UInt16) (entries : List Entry) (proper : ∀ entry ∈ entries, entry.Proper ∧ entry.Kept)
    (some : entries ≠ [])
    (short : ((store.setStoreRoot port).adjustPrimaryMediaData (entries.flatMap Entry.text)).length < 2 ^ 31) :
    playlist ((store.setStoreRoot port).adjustPrimaryMediaData (entries.flatMap Entry.text)) =
      .some (relocate (store.setStoreRoot port).adjustPrimaryMediaData (listing entries)) := by
  obtain ⟨entries', text, proper', listed, length⟩ := (linewise_store store port).text entries proper
  rw [text] at short ⊢
  have some' : entries' ≠ [] := by
    rw [← List.length_pos_iff, length]
    exact List.length_pos_iff.mpr some
  rw [playlist_listed entries' (fun entry member => (proper' entry member).1) some' short, ← listed]
  rfl

end Served

end Apsdk.HlsParser
