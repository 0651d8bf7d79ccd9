import Apsdk.MediaDataStore
import Apsdk.Library.Replacing

/-! The location that a URI is rewritten to, against the path under which the data for
the URI is stored. Counting a letter and the colons shows what has been replaced. -/

namespace Apsdk.MediaDataStore
open Library

/-- Where the player gets a URI from. -/
inductive Place where
  | primary
  | document
deriving DecidableEq, Repr

def AppId.scheme : AppId → Bytes
  | .youtube => MLHLS_SCHEME
  | .netflix => NFHLS_SCHEME
  | .unknown => []

namespace Store

/-- What the player is given for a URI. -/
def location (store : Store) : Place → Bytes → Bytes
  | .primary, uri => store.adjustPrimaryUri uri
  | .document, uri => store.adjustPrimaryMediaData uri

/-- What is stored for an answer. -/
def adjustedData (rewriting : Rewriting) (store : Store) (uri data : Bytes) : Option Bytes :=
  if isPrimaryDataUri uri then some (store.adjustPrimaryMediaData data) else rewriting.adjustSecondaryMediaData data

/-- The player asks this server, with a path under which it finds what is stored for the URI. -/
def Served (store : Store) (place : Place) (uri : Bytes) : Prop :=
  ∃ path, store.extractUriPath uri = some path ∧ store.location place uri = HTTP_SCHEME ++ store.host ++ path ∧
    ∀ (rewriting : Rewriting) (connected : Bool) (data stored : Bytes), store.adjustedData rewriting uri data = some stored →
      stored ≠ [] → (store.processMediaData rewriting connected uri data).1.queryMediaData path = stored

end Store

/-- What follows the scheme names a local host and then a path, with no scheme and no local host in it. -/
def LocalAddress (address : Bytes) : Prop :=
  ∃ name ∈ HOST_LIST, ∃ path, address = name ++ path ∧ path.head? = some 47 ∧
    ∀ literal ∈ SCHEME_LIST ++ HOST_LIST, contains literal path = false

/-- What follows the scheme is the path without its slash, with no scheme of the app and no local host in it. -/
def BareAddress (address : Bytes) : Prop :=
  address ≠ [] ∧ address.head? ≠ some 47 ∧ ∀ literal ∈ NFHLS_SCHEME :: HOST_LIST, contains literal address = false

/-- In the documents of the one app, local hosts are not replaced, and the slash is added. -/
def Agrees : AppId → Place → Bytes → Prop
  | .netflix, .document, address => BareAddress address
  | _, _, address => LocalAddress address

section Literals

theorem hosts_solid : ∀ literal ∈ HOST_LIST, literal ≠ [] := by decide

theorem schemes_solid : ∀ literal ∈ SCHEME_LIST, literal ≠ [] := by decide

theorem hosts_free : ∀ first ∈ HOST_LIST, ∀ second ∈ HOST_LIST, first <+: second → first = second := by decide

theorem schemes_free : ∀ first ∈ SCHEME_LIST, ∀ second ∈ SCHEME_LIST, first <+: second → first = second := by decide

theorem hosts_length : ∀ literal ∈ HOST_LIST, literal.length = 9 := by decide

theorem single_free (literal : Bytes) : ∀ first ∈ [literal], ∀ second ∈ [literal], first <+: second → first = second := by
  intro first member second member' _
  rw [List.mem_singleton.mp member, List.mem_singleton.mp member']

/-- The digits of a port have neither the letter p nor a colon in them. -/
theorem port_count (port : UInt16) (byte : UInt8) (foreign : byte.toNat < 48 ∨ 57 < byte.toNat) :
    (ascii (toString port.toNat)).count byte = 0 := by
  rw [ascii_toString, List.count_eq_zero]
  intro member
  have bounds := decimal_digits port.toNat byte member
  omega

variable (store : Store) (port : UInt16)

theorem host_letters : (store.setStoreRoot port).host.count 112 = 0 := by
  show (ascii "localhost:" ++ ascii (toString port.toNat)).count 112 = 0
  rw [List.count_append, port_count port 112 (by decide)]
  decide

theorem host_colons : (store.setStoreRoot port).host.count 58 = 1 := by
  show (ascii "localhost:" ++ ascii (toString port.toNat)).count 58 = 1
  rw [List.count_append, port_count port 58 (by decide)]
  decide

theorem host_head : (store.setStoreRoot port).host.head? = some 108 := rfl

theorem host_matched (rest : Bytes) : 0 < matchesIn HOST_LIST ((store.setStoreRoot port).host ++ rest) := by
  have split : (store.setStoreRoot port).host ++ rest =
      ascii "localhost" ++ (ascii ":" ++ ascii (toString port.toNat) ++ rest) := rfl
  rw [split, matchesIn_match (by decide) (matchAt_append hosts_free (by decide) _)]
  exact Nat.succ_pos _

end Literals

/-- A path begins with a slash. -/
def slashed (path : Bytes) : Bytes := if path.head? = some 47 then path else 47 :: path

theorem extractNetflixPath_eq (uri : Bytes) : Store.extractNetflixPath uri =
    if replaceAll HOST_LIST [] (replaceAll [NFHLS_SCHEME] [] uri) = [] then none
    else some (slashed (replaceAll HOST_LIST [] (replaceAll [NFHLS_SCHEME] [] uri))) := by
  unfold Store.extractNetflixPath
  cases replaceAll HOST_LIST [] (replaceAll [NFHLS_SCHEME] [] uri) with
  | nil => rfl
  | cons first rest =>
    rw [if_neg (List.cons_ne_nil first rest), slashed]
    dsimp only
    by_cases slash : first = 47
    · rw [if_neg (not_not_intro slash), List.head?_cons, if_pos (congrArg some slash)]
    · have other : (first :: rest).head? ≠ some 47 := fun same => slash (Option.some.inj same)
      rw [if_pos slash, if_neg other]

theorem slashed_count (path : Bytes) {byte : UInt8} (other : byte ≠ 47) : (slashed path).count byte = path.count byte := by
  unfold slashed
  split
  · rfl
  · rw [List.count_cons_of_ne (Ne.symm other)]

theorem slashed_length (path : Bytes) : (slashed path).length = path.length ∧ path.head? = some 47 ∧ slashed path = path ∨
    (slashed path).length = path.length + 1 := by
  unfold slashed
  split
  next slash => exact .inl ⟨rfl, slash, rfl⟩
  next => exact .inr rfl

/-- Where one host has been replaced, and nothing else is cut from the path but what makes it shorter, the host comes first. -/
theorem host_first {host address path : Bytes} (begins : host.head? = some 108) (one : matchesIn HOST_LIST address = 1)
    (short : path = replaceAll HOST_LIST [] address ∨ path.length + 1 < (replaceAll HOST_LIST [] address).length)
    (same : replaceAll HOST_LIST host address = host ++ slashed path) :
    ∃ name ∈ HOST_LIST, address = name ++ path ∧ path.head? = some 47 ∧ matchesIn HOST_LIST path = 0 := by
  obtain ⟨before, name, after, member, rfl, none_, replaced⟩ := replaceAll_of_succ hosts_solid one
  rw [replaced, replaceAll_of_none hosts_solid none_] at same short
  rw [List.append_nil] at short
  have lengths := congrArg List.length same
  simp only [List.length_append] at lengths short
  have whole : path = before ++ after := by
    refine short.resolve_right fun shorter => ?_
    rcases slashed_length path with ⟨length, -, -⟩ | length <;> omega
  have size : path.length = before.length + after.length := by rw [whole, List.length_append]
  obtain ⟨-, slash, plain⟩ := (slashed_length path).resolve_right (by omega)
  rw [plain, whole, List.append_assoc] at same
  cases before with
  | nil =>
    obtain rfl : path = after := whole
    exact ⟨name, member, rfl, slash, none_⟩
  | cons first before =>
    -- The text would begin with a slash, and with the first letter of the host.
    have letter : some first = host.head? := by
      have heads := congrArg List.head? same
      cases host with
      | nil => cases begins
      | cons byte host => exact heads
    rw [begins] at letter
    rw [whole] at slash
    cases letter.symm.trans slash

/-- What is left of the address of an app when its path is extracted. -/
def remaining : AppId → Bytes → Bytes
  | .youtube, address => replaceAll HOST_LIST [] (replaceAll [NFHLS_SCHEME] []
    (replaceAll HOST_LIST [] (replaceAll [MLHLS_SCHEME] [] address)))
  | .netflix, address => replaceAll HOST_LIST [] (replaceAll [NFHLS_SCHEME] [] address)
  | .unknown, address => address

theorem extractUriPath_eq {store : Store} (known : store.appId ≠ .unknown) (address : Bytes) :
    store.extractUriPath (store.appId.scheme ++ address) =
      if remaining store.appId address = [] then none else some (slashed (remaining store.appId address)) := by
  have cut : ∀ literal : Bytes, literal ≠ [] → replaceAll [literal] [] (literal ++ address) = replaceAll [literal] [] address :=
    fun literal filled => replaceAll_match filled (matchAt_append (single_free literal) (List.mem_singleton_self _) _)
  unfold Store.extractUriPath
  cases app : store.appId with
  | unknown => exact absurd app known
  | youtube =>
    dsimp only [AppId.scheme]
    rw [cut MLHLS_SCHEME (by decide), extractNetflixPath_eq]
    rfl
  | netflix =>
    dsimp only [AppId.scheme]
    rw [extractNetflixPath_eq, cut NFHLS_SCHEME (by decide)]
    rfl

/-- The literals that are replaced by the scheme of the player. -/
def replacedSchemes : AppId → Place → List Bytes
  | .youtube, .document => [MLHLS_SCHEME]
  | _, _ => SCHEME_LIST

theorem location_eq {store : Store} {place : Place} (known : store.appId ≠ .unknown) (plain : (store.appId, place) ≠ (.netflix, .document))
    (address : Bytes) : store.location place (store.appId.scheme ++ address) = HTTP_SCHEME ++
      replaceAll HOST_LIST store.host (replaceAll (replacedSchemes store.appId place) HTTP_SCHEME address) := by
  have http : Apart HOST_LIST HTTP_SCHEME := by decide +kernel
  have both : ∀ scheme ∈ SCHEME_LIST, scheme ≠ [] →
      replaceAll SCHEME_LIST HTTP_SCHEME (scheme ++ address) = HTTP_SCHEME ++ replaceAll SCHEME_LIST HTTP_SCHEME address :=
    fun scheme member filled => replaceAll_match filled (matchAt_append schemes_free member _)
  cases app : store.appId with
  | unknown => exact absurd app known
  | youtube =>
    cases place with
    | primary =>
      show replaceAll HOST_LIST store.host (replaceAll SCHEME_LIST HTTP_SCHEME (MLHLS_SCHEME ++ address)) = _
      rw [both MLHLS_SCHEME (by decide) (by decide), replaceAll_stretch http]
      rfl
    | document =>
      have single : replaceAll [MLHLS_SCHEME] HTTP_SCHEME (MLHLS_SCHEME ++ address) =
          HTTP_SCHEME ++ replaceAll [MLHLS_SCHEME] HTTP_SCHEME address :=
        replaceAll_match (by decide) (matchAt_append (single_free MLHLS_SCHEME) (List.mem_singleton_self _) _)
      rw [Store.location, Store.adjustPrimaryMediaData, app]
      show replaceAll HOST_LIST store.host (replaceAll [MLHLS_SCHEME] HTTP_SCHEME (MLHLS_SCHEME ++ address)) = _
      rw [single, replaceAll_stretch http]
      rfl
  | netflix =>
    cases place with
    | primary =>
      show replaceAll HOST_LIST store.host (replaceAll SCHEME_LIST HTTP_SCHEME (NFHLS_SCHEME ++ address)) = _
      rw [both NFHLS_SCHEME (by decide) (by decide), replaceAll_stretch http]
      rfl
    | document => exact absurd (congrArg (fun app => (app, Place.document)) app) plain

theorem replacedSchemes_subset (app : AppId) (place : Place) : replacedSchemes app place ⊆ SCHEME_LIST := by
  cases app <;> cases place <;> decide

theorem replacedSchemes_solid (app : AppId) (place : Place) : ∀ literal ∈ replacedSchemes app place, literal ≠ [] :=
  fun literal member => schemes_solid literal (replacedSchemes_subset app place member)

theorem single_solid {literal : Bytes} (filled : literal ≠ []) : ∀ other ∈ [literal], other ≠ [] := by
  intro other member
  rwa [List.mem_singleton.mp member]

/-- A scheme that is nowhere in an address is not in the path behind a host. -/
theorem absent_behind {literal name path : Bytes} (scheme : literal ∈ SCHEME_LIST) (host : name ∈ HOST_LIST)
    (absent : contains literal (name ++ path) = false) : contains literal path = false := by
  have apart : ∀ literal ∈ SCHEME_LIST, ∀ name ∈ HOST_LIST, Apart [literal] name := by decide +kernel
  have solid := single_solid (schemes_solid literal scheme)
  have none_ := (matchesIn_eq_zero_iff solid (name ++ path)).mpr (List.forall_mem_singleton.mpr absent)
  rw [matchesIn_stretch (apart literal scheme name host)] at none_
  exact (matchesIn_eq_zero_iff solid path).mp none_ literal (List.mem_singleton_self _)

section Counting
variable {address path : Bytes}

/-- Cutting out hosts takes away no letter p and no colon. -/
theorem cut_count {byte : UInt8} (foreign : byte = 112 ∨ byte = 58) (text : Bytes) :
    (replaceAll HOST_LIST [] text).count byte = text.count byte := by
  have same : ∀ literal ∈ HOST_LIST, literal.count byte = 0 := by
    rcases foreign with rfl | rfl <;> decide
  have counts := count_replaceAll hosts_solid byte 0 same [] text
  rwa [Nat.mul_zero, List.count_nil, Nat.mul_zero] at counts

/-- The letter p is not cut out of an address. -/
theorem remaining_letters (app : AppId) (address : Bytes) : (remaining app address).count 112 = address.count 112 := by
  have single : ∀ literal ∈ SCHEME_LIST, ∀ text : Bytes, (replaceAll [literal] [] text).count 112 = text.count 112 := by
    intro literal member text
    have same : ∀ literal ∈ SCHEME_LIST, literal.count 112 = 0 := by decide
    have counts := count_replaceAll (single_solid (schemes_solid literal member)) 112 0
      (List.forall_mem_singleton.mpr (same literal member)) [] text
    rwa [Nat.mul_zero, List.count_nil, Nat.mul_zero] at counts
  cases app with
  | youtube =>
    rw [remaining, cut_count (.inl rfl), single NFHLS_SCHEME (by decide), cut_count (.inl rfl), single MLHLS_SCHEME (by decide)]
  | netflix => rw [remaining, cut_count (.inl rfl), single NFHLS_SCHEME (by decide)]
  | unknown => rfl

/-- A second scheme would bring another letter p into the location. -/
theorem no_second_scheme {app : AppId} {place : Place} {host : Bytes} (letters : host.count 112 = 0)
    (same : replaceAll HOST_LIST host (replaceAll (replacedSchemes app place) HTTP_SCHEME address) =
      host ++ slashed (remaining app address)) : matchesIn (replacedSchemes app place) address = 0 := by
  have schemes : ∀ literal ∈ SCHEME_LIST, literal.count 112 = 0 := by decide
  have outer := count_replaceAll hosts_solid 112 0 (by decide) host
    (replaceAll (replacedSchemes app place) HTTP_SCHEME address)
  have inner := count_replaceAll (replacedSchemes_solid app place) 112 0
    (fun literal member => schemes literal (replacedSchemes_subset app place member)) HTTP_SCHEME address
  have once : HTTP_SCHEME.count 112 = 1 := by decide
  rw [same, List.count_append, letters, slashed_count _ (by decide), remaining_letters] at outer
  rw [once] at inner
  omega

/-- A host that is replaced brings one colon into the location. -/
theorem replaced_colons {host : Bytes} (colons : host.count 58 = 1) (same : replaceAll HOST_LIST host address = host ++ slashed path) :
    address.count 58 + matchesIn HOST_LIST address = 1 + path.count 58 := by
  have counts := count_replaceAll hosts_solid 58 0 (by decide) host address
  rw [same, List.count_append, colons, slashed_count _ (by decide)] at counts
  omega

end Counting

section Addresses
variable {store : Store} {port : UInt16} {address : Bytes}

theorem local_of_first {path : Bytes} (first : ∃ name ∈ HOST_LIST, address = name ++ path ∧ path.head? = some 47 ∧
      matchesIn HOST_LIST path = 0)
    (schemes : ∀ literal ∈ SCHEME_LIST, ∀ name ∈ HOST_LIST, address = name ++ path → contains literal path = false) :
    LocalAddress address := by
  obtain ⟨name, member, split, slash, hosts⟩ := first
  refine ⟨name, member, path, split, slash, fun literal inside => ?_⟩
  cases List.mem_append.mp inside with
  | inl scheme => exact schemes literal scheme name member split
  | inr host => exact (matchesIn_eq_zero_iff hosts_solid path).mp hosts literal host

/-- Without a scheme in the address, the path of the one app is what is left when the hosts are cut out. -/
theorem local_of_netflix (absent : ∀ literal ∈ SCHEME_LIST, contains literal address = false)
    (same : replaceAll HOST_LIST (store.setStoreRoot port).host address =
      (store.setStoreRoot port).host ++ slashed (remaining .netflix address)) : LocalAddress address := by
  have kept : matchesIn [NFHLS_SCHEME] address = 0 :=
    (matchesIn_eq_zero_iff (single_solid (by decide)) address).mpr
      (List.forall_mem_singleton.mpr (absent NFHLS_SCHEME (by decide)))
  have cut : remaining .netflix address = replaceAll HOST_LIST [] address := by
    rw [remaining, replaceAll_of_none (single_solid (by decide)) kept]
  rw [cut] at same
  have colons := replaced_colons (host_colons store port) same
  rw [cut_count (.inr rfl)] at colons
  apply local_of_first (host_first (host_head store port) (by omega) (.inl rfl) same)
  intro literal scheme name member split
  have nowhere := absent literal scheme
  rw [split] at nowhere
  exact absent_behind scheme member nowhere

/-- In the path of the other app, a scheme and a host may come about where a host is cut out. Such a scheme would take a
colon with it, and such a host would make the path too short. -/
theorem local_of_youtube (absent : contains MLHLS_SCHEME address = false)
    (same : replaceAll HOST_LIST (store.setStoreRoot port).host address =
      (store.setStoreRoot port).host ++ slashed (remaining .youtube address)) : LocalAddress address := by
  have kept : matchesIn [MLHLS_SCHEME] address = 0 :=
    (matchesIn_eq_zero_iff (single_solid (by decide)) address).mpr (List.forall_mem_singleton.mpr absent)
  have cut : remaining .youtube address =
      replaceAll HOST_LIST [] (replaceAll [NFHLS_SCHEME] [] (replaceAll HOST_LIST [] address)) := by
    rw [remaining, replaceAll_of_none (single_solid (by decide)) kept]
  rw [cut] at same
  have colons := replaced_colons (host_colons store port) same
  rw [cut_count (.inr rfl)] at colons
  have joined := count_replaceAll (single_solid (by decide : NFHLS_SCHEME ≠ [])) 58 1 (by decide) []
    (replaceAll HOST_LIST [] address)
  rw [cut_count (.inr rfl), List.count_nil] at joined
  have one : matchesIn HOST_LIST address = 1 := by
    by_contra other
    have nothing : matchesIn HOST_LIST address = 0 := by omega
    rw [replaceAll_of_none hosts_solid nothing] at same
    have positive := host_matched store port (slashed (replaceAll HOST_LIST []
      (replaceAll [NFHLS_SCHEME] [] (replaceAll HOST_LIST [] address))))
    rw [← same, nothing] at positive
    exact Nat.lt_irrefl 0 positive
  have unjoined : matchesIn [NFHLS_SCHEME] (replaceAll HOST_LIST [] address) = 0 := by omega
  rw [replaceAll_of_none (single_solid (by decide)) unjoined] at same
  have lengths := length_replaceAll hosts_solid hosts_length [] (replaceAll HOST_LIST [] address)
  have short : replaceAll HOST_LIST [] (replaceAll HOST_LIST [] address) = replaceAll HOST_LIST [] address ∨
      (replaceAll HOST_LIST [] (replaceAll HOST_LIST [] address)).length + 1 < (replaceAll HOST_LIST [] address).length := by
    by_cases again : matchesIn HOST_LIST (replaceAll HOST_LIST [] address) = 0
    · exact .inl (replaceAll_of_none hosts_solid again [])
    · rw [List.length_nil] at lengths
      exact .inr (by omega)
  have first := host_first (host_head store port) one short same
  apply local_of_first first
  intro literal scheme name member split
  obtain ⟨-, -, -, -, hosts⟩ := first
  have rest : replaceAll HOST_LIST [] address = replaceAll HOST_LIST [] (replaceAll HOST_LIST [] address) := by
    refine (congrArg (replaceAll HOST_LIST []) split).trans ?_
    rw [replaceAll_match (hosts_solid name member) (matchAt_append hosts_free member _), List.nil_append,
      replaceAll_of_none hosts_solid hosts]
  rw [rest] at unjoined
  rw [split] at absent
  have schemes : literal = MLHLS_SCHEME ∨ literal = NFHLS_SCHEME := by simpa [SCHEME_LIST] using scheme
  rcases schemes with rfl | rfl
  · exact absent_behind scheme member absent
  · exact (matchesIn_eq_zero_iff (single_solid (by decide)) _).mp unjoined _ (List.mem_singleton_self _)

/-- The two rewritings agree only on a local address. -/
theorem local_of_same {app : AppId} {place : Place} (known : app ≠ .unknown) (plain : (app, place) ≠ (.netflix, .document))
    (same : replaceAll HOST_LIST (store.setStoreRoot port).host (replaceAll (replacedSchemes app place) HTTP_SCHEME address) =
      (store.setStoreRoot port).host ++ slashed (remaining app address)) : LocalAddress address := by
  have none_ := no_second_scheme (host_letters store port) same
  have absent := (matchesIn_eq_zero_iff (replacedSchemes_solid app place) address).mp none_
  rw [replaceAll_of_none (replacedSchemes_solid app place) none_] at same
  cases app with
  | unknown => exact absurd rfl known
  | youtube => exact local_of_youtube (absent MLHLS_SCHEME (by cases place <;> decide)) same
  | netflix =>
    cases place with
    | primary => exact local_of_netflix absent same
    | document => exact absurd rfl plain

/-- A path without schemes and hosts is left alone, also behind a host. -/
theorem same_of_local {host name path : Bytes} (app : AppId) (place : Place) (member : name ∈ HOST_LIST)
    (slash : path.head? = some 47) (clean : ∀ literal ∈ SCHEME_LIST ++ HOST_LIST, contains literal path = false)
    (known : app ≠ .unknown) :
    replaceAll HOST_LIST host (replaceAll (replacedSchemes app place) HTTP_SCHEME (name ++ path)) = host ++ path ∧
      remaining app (name ++ path) = path ∧ slashed path = path := by
  have hosts : matchesIn HOST_LIST path = 0 :=
    (matchesIn_eq_zero_iff hosts_solid path).mpr fun literal inside => clean literal (List.mem_append_right _ inside)
  have apart : ∀ name ∈ HOST_LIST, Apart SCHEME_LIST name := by decide +kernel
  have schemes : ∀ alternatives, alternatives ⊆ SCHEME_LIST → ∀ replacement,
      replaceAll alternatives replacement path = path ∧
        replaceAll alternatives replacement (name ++ path) = name ++ path := by
    intro alternatives subset replacement
    have solid : ∀ literal ∈ alternatives, literal ≠ [] := fun literal inside => schemes_solid literal (subset inside)
    have none_ := (matchesIn_eq_zero_iff solid path).mpr fun literal inside => clean literal (List.mem_append_left _ (subset inside))
    have outside : Apart alternatives name := fun byte inside literal scheme => apart name member byte inside literal (subset scheme)
    refine ⟨replaceAll_of_none solid none_ replacement, replaceAll_of_none solid ?_ replacement⟩
    rw [matchesIn_stretch outside, none_]
  have host_ : ∀ replacement, replaceAll HOST_LIST replacement (name ++ path) = replacement ++ path := by
    intro replacement
    rw [replaceAll_match (hosts_solid name member) (matchAt_append hosts_free member _), replaceAll_of_none hosts_solid hosts]
  refine ⟨?_, ?_, if_pos slash⟩
  · rw [(schemes _ (replacedSchemes_subset app place) HTTP_SCHEME).2, host_]
  · cases app with
    | unknown => exact absurd rfl known
    | youtube =>
      rw [remaining, (schemes [MLHLS_SCHEME] (by decide) []).2, host_, List.nil_append, (schemes [NFHLS_SCHEME] (by decide) []).1,
        replaceAll_of_none hosts_solid hosts]
    | netflix => rw [remaining, (schemes [NFHLS_SCHEME] (by decide) []).2, host_, List.nil_append]

/-- In a document of the other app, only the scheme is replaced. -/
theorem bare_of_same (host : Bytes) (letters : host.count 112 = 0)
    (same : HTTP_SCHEME ++ host ++ [47] ++ replaceAll [NFHLS_SCHEME] (HTTP_SCHEME ++ host ++ [47]) address =
      HTTP_SCHEME ++ host ++ slashed (remaining .netflix address)) (left : remaining .netflix address ≠ []) :
    BareAddress address := by
  have once : (HTTP_SCHEME ++ host ++ [47]).count 112 = 1 := by
    rw [List.count_append, List.count_append, letters]
    decide
  have counts := count_replaceAll (single_solid (by decide : NFHLS_SCHEME ≠ [])) 112 0 (by decide) (HTTP_SCHEME ++ host ++ [47]) address
  rw [List.append_assoc, List.append_right_inj] at same
  have letters_ := congrArg (List.count 112) same
  rw [List.count_append, slashed_count _ (by decide), remaining_letters] at letters_
  rw [once] at counts
  have none_ : matchesIn [NFHLS_SCHEME] address = 0 := by
    have slash : [47].count (112 : UInt8) = 0 := by decide
    omega
  have cut : remaining .netflix address = replaceAll HOST_LIST [] address := by
    rw [remaining, replaceAll_of_none (single_solid (by decide)) none_]
  rw [replaceAll_of_none (single_solid (by decide)) none_, cut] at same
  rw [cut] at left
  have sizes := length_replaceAll hosts_solid hosts_length [] address
  rw [List.length_nil] at sizes
  have lengths := congrArg List.length same
  rw [List.length_append, List.length_singleton] at lengths
  have hosts : matchesIn HOST_LIST address = 0 := by
    rcases slashed_length (replaceAll HOST_LIST [] address) with ⟨length, -, -⟩ | length <;> omega
  rw [replaceAll_of_none hosts_solid hosts] at same left
  refine ⟨left, fun slash => ?_, List.forall_mem_cons.mpr ⟨?_, (matchesIn_eq_zero_iff hosts_solid address).mp hosts⟩⟩
  · rw [slashed, if_pos slash] at same
    exact absurd (congrArg List.length same) (by rw [List.length_append, List.length_singleton]; omega)
  · exact (matchesIn_eq_zero_iff (single_solid (by decide)) address).mp none_ _ (List.mem_singleton_self _)

theorem same_of_bare {host : Bytes} (bare : BareAddress address) :
    replaceAll [NFHLS_SCHEME] (HTTP_SCHEME ++ host ++ [47]) address = address ∧ remaining .netflix address = address ∧
      slashed address = 47 :: address := by
  obtain ⟨-, start, clean⟩ := bare
  obtain ⟨scheme, hosts⟩ := List.forall_mem_cons.mp clean
  have none_ := (matchesIn_eq_zero_iff (single_solid (by decide)) address).mpr (List.forall_mem_singleton.mpr scheme)
  have hosts_ := (matchesIn_eq_zero_iff hosts_solid address).mpr hosts
  refine ⟨replaceAll_of_none (single_solid (by decide)) none_ _, ?_, if_neg start⟩
  rw [remaining, replaceAll_of_none (single_solid (by decide)) none_, replaceAll_of_none hosts_solid hosts_]

end Addresses

section Stored
variable {rewriting : Rewriting} {store : Store} {uri path data stored : Bytes}

/-- What an answer brings is found under the path of its URI. -/
theorem process_stored (connected : Bool) (extracted : store.extractUriPath uri = some path) (filled : path ≠ [])
    (adjusted : store.adjustedData rewriting uri data = some stored) (present : stored ≠ []) :
    (store.processMediaData rewriting connected uri data).1.queryMediaData path = stored := by
  unfold Store.processMediaData
  obtain ⟨stacked, here⟩ : ∃ stacked : Store, stacked = if Store.isPrimaryDataUri uri then
      { store with uriStack := (Store.collectedUris rewriting data).reverse ++ store.uriStack } else store := ⟨_, rfl⟩
  have apps : stacked.appId = store.appId := by
    rw [here]
    split <;> rfl
  have hosts : stacked.host = store.host := by
    rw [here]
    split <;> rfl
  have rewritten : stacked.adjustPrimaryMediaData data = store.adjustPrimaryMediaData data := by
    unfold Store.adjustPrimaryMediaData Store.adjustMlhlsData Store.adjustNfhlsData
    rw [apps, hosts]
  have same : stacked.extractUriPath uri = some path := by
    rw [← extracted]
    unfold Store.extractUriPath
    rw [apps]
  unfold Store.adjustedData at adjusted
  dsimp only
  rw [← here, rewritten, adjusted]
  dsimp only
  rw [same]
  dsimp only
  rw [if_pos ⟨filled, present⟩, Store.queryMediaData, Store.nextRequest_mediaData, Store.addMediaData, SortedMap.find?_insert,
    if_pos rfl]
  rfl

end Stored

theorem document_netflix {store : Store} (app : store.appId = .netflix) (address : Bytes) :
    store.location .document (NFHLS_SCHEME ++ address) = HTTP_SCHEME ++ store.host ++ [47] ++
      replaceAll [NFHLS_SCHEME] (HTTP_SCHEME ++ store.host ++ [47]) address := by
  rw [Store.location, Store.adjustPrimaryMediaData, app]
  exact replaceAll_match (by decide) (matchAt_append (single_free NFHLS_SCHEME) (List.mem_singleton_self _) _)

/-- Where the rewriting of a URI agrees with its path, what is stored for it is found there. -/
theorem served_iff_same {store : Store} {place : Place} {address : Bytes} (known : store.appId ≠ .unknown) :
    store.Served place (store.appId.scheme ++ address) ↔ remaining store.appId address ≠ [] ∧
      store.location place (store.appId.scheme ++ address) =
        HTTP_SCHEME ++ store.host ++ slashed (remaining store.appId address) := by
  have extracted := extractUriPath_eq known address
  constructor
  · rintro ⟨path, found, same, -⟩
    rw [extracted] at found
    split_ifs at found with left
    obtain rfl := Option.some.inj found
    exact ⟨left, same⟩
  · intro ⟨left, same⟩
    rw [if_neg left] at extracted
    refine ⟨_, extracted, same, fun rewriting connected data stored adjusted present => ?_⟩
    apply process_stored connected extracted _ adjusted present
    intro empty
    rcases slashed_length (remaining store.appId address) with ⟨-, -, plain⟩ | length
    · exact left (plain.symm.trans empty)
    · rw [empty] at length
      cases length

/-- The player finds what is stored for a URI exactly if the address of the URI is written as the rewriting at its place expects. -/
theorem served_iff (store : Store) (port : UInt16) (place : Place) (address : Bytes) (known : store.appId ≠ .unknown) :
    (store.setStoreRoot port).Served place (store.appId.scheme ++ address) ↔ Agrees store.appId place address := by
  have served := @served_iff_same (store.setStoreRoot port) place address known
  refine served.trans ?_
  show remaining store.appId address ≠ [] ∧ (store.setStoreRoot port).location place (store.appId.scheme ++ address) =
    HTTP_SCHEME ++ (store.setStoreRoot port).host ++ slashed (remaining store.appId address) ↔ _
  by_cases plain : (store.appId, place) = (.netflix, .document)
  · obtain ⟨app, rfl⟩ := Prod.mk.inj plain
    have located := @document_netflix (store.setStoreRoot port) app address
    rw [app]
    dsimp only [AppId.scheme]
    rw [located]
    constructor
    · intro ⟨left, same⟩
      exact bare_of_same _ (host_letters store port) same left
    · intro bare
      obtain ⟨replaced, left, start⟩ := @same_of_bare address (store.setStoreRoot port).host bare
      rw [replaced, left, start]
      exact ⟨bare.1, List.append_assoc _ _ _⟩
  · have located : (store.setStoreRoot port).location place (store.appId.scheme ++ address) = HTTP_SCHEME ++
        replaceAll HOST_LIST (store.setStoreRoot port).host
          (replaceAll (replacedSchemes store.appId place) HTTP_SCHEME address) :=
      @location_eq (store.setStoreRoot port) place known plain address
    have agrees : Agrees store.appId place address ↔ LocalAddress address := by
      cases app : store.appId with
      | youtube => exact Iff.rfl
      | unknown => exact absurd app known
      | netflix =>
        cases place with
        | primary => exact Iff.rfl
        | document => exact absurd (congrArg (fun app => (app, Place.document)) app) plain
    rw [agrees, located, List.append_assoc, List.append_right_inj]
    constructor
    · intro ⟨_, same⟩
      exact local_of_same known plain same
    · rintro ⟨name, member, path, rfl, slash, clean⟩
      obtain ⟨replaced, left, start⟩ := @same_of_local (store.setStoreRoot port).host name path store.appId place member slash clean known
      rw [replaced, left, start]
      refine ⟨?_, rfl⟩
      rintro rfl
      cases slash

/-- A store that has begun to serve an app. -/
def serving (app : AppId) : Store := { Store.new 1 with appId := app }

theorem local_playlist_served :
    ((serving .youtube).setStoreRoot 7100).Served .primary (AppId.youtube.scheme ++ ascii "localhost/master.m3u8") ↔
      Agrees .youtube .primary (ascii "localhost/master.m3u8") :=
  served_iff (serving .youtube) 7100 .primary (ascii "localhost/master.m3u8") (by decide)

/-- The player is sent to `/localhost/a.m3u8` for what is stored under `/a.m3u8`. -/
theorem netflix_host_not_served :
    ¬ ∀ (store : Store) (port : UInt16) (place : Place) (address : Bytes), store.appId ≠ .unknown →
      (store.setStoreRoot port).Served place (store.appId.scheme ++ address) := by
  intro all
  obtain ⟨path, extracted, same, -⟩ := all (serving .netflix) 7100 .document (ascii "localhost/a.m3u8") (by decide)
  have found : ((serving .netflix).setStoreRoot 7100).extractUriPath (AppId.netflix.scheme ++ ascii "localhost/a.m3u8") =
      some (ascii "/a.m3u8") := by decide +kernel
  obtain rfl := Option.some.inj (found.symm.trans extracted)
  exact absurd same (by decide +kernel)

end Apsdk.MediaDataStore
