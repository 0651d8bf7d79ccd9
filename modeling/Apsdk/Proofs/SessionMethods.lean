import Apsdk.Proofs.HandlerFootprint
import Apsdk.Proofs.CountedParse
import Apsdk.Proofs.ResponseCorrespondence

/-! The methods that concern a session as a whole. Their routes are registered under the
wildcard, that of `OPTIONS` under the empty path. -/

namespace Apsdk.Airplay
open Library Traced RequestRouteTable

inductive SessionMethod where
  | options
  | setup
  | record
  | getParameter
  | setParameter
  | teardown
  | flush
deriving DecidableEq, Repr

namespace SessionMethod

def name : SessionMethod → Bytes
  | .options => ascii "OPTIONS"
  | .setup => ascii "SETUP"
  | .record => ascii "RECORD"
  | .getParameter => ascii "GET_PARAMETER"
  | .setParameter => ascii "SET_PARAMETER"
  | .teardown => ascii "TEARDOWN"
  | .flush => ascii "FLUSH"

def handler : SessionMethod → Handler
  | .options => .options
  | .setup => .setup
  | .record => .record
  | .getParameter => .getParameter
  | .setParameter => .setParameter
  | .teardown => .teardown
  | .flush => .flush

/-- There is one handler for each method, and that of `OPTIONS` has the empty path. -/
theorem registered (method : SessionMethod) :
    (∀ route ∈ routesTable, route.scheme = ascii "RTSP" ∧ route.method = method.name → route.handler = method.handler) ∧
      (method = .options → ∀ route ∈ routesTable, route.scheme = ascii "RTSP" ∧ route.method = method.name → route.path = []) := by
  cases method <;> decide +kernel

theorem wildcard {method : SessionMethod} (other : method ≠ .options) :
    lastHandler routesTable (ascii "RTSP") method.name (ascii "*") = some method.handler := by
  cases method with
  | options => exact absurd rfl other
  | _ => decide +kernel

/-- What is found for a method is its handler. -/
theorem lastHandler_eq {method : SessionMethod} {path : Bytes} {found : Handler}
    (last : lastHandler routesTable (ascii "RTSP") method.name path = some found) :
    found = method.handler ∧ (method = .options → path = []) := by
  obtain ⟨route, here, rfl⟩ := Option.map_eq_some_iff.mp last
  have member := List.mem_reverse.mp (List.mem_of_find?_eq_some here)
  have named := List.find?_some here
  obtain ⟨scheme, name, rfl⟩ := of_decide_eq_true named
  obtain ⟨one, empty⟩ := method.registered
  exact ⟨one route member ⟨scheme, name⟩, fun options => empty options route member ⟨scheme, name⟩⟩

/-- There is no wildcard for `OPTIONS`. -/
theorem lookup_options {path : Bytes} (named : path ≠ []) :
    lookup routesTable (ascii "RTSP") (name .options) path = .error .unknownPath := by
  have none_ : ∀ path, path ≠ [] → lastHandler routesTable (ascii "RTSP") (name .options) path = none := by
    intro path named
    cases last : lastHandler routesTable (ascii "RTSP") (name .options) path with
    | none => rfl
    | some found => exact absurd ((lastHandler_eq last).2 rfl) named
  have offered : ¬ ∀ route ∈ routesTable, route.scheme = ascii "RTSP" → route.method ≠ name .options := by decide +kernel
  have known : ¬ ∀ route ∈ routesTable, route.scheme ≠ ascii "RTSP" := by decide +kernel
  rw [lookup, none_ path named, none_ (ascii "*") (by decide)]
  dsimp only
  rw [if_neg known, if_neg offered]

theorem lookup_handler {method : SessionMethod} {path : Bytes} (empty : method = .options → path = []) :
    lookup routesTable (ascii "RTSP") method.name path = .ok method.handler := by
  unfold lookup
  cases last : lastHandler routesTable (ascii "RTSP") method.name path with
  | some handler => rw [(lastHandler_eq last).1]
  | none =>
    by_cases options : method = .options
    · rw [options, empty options] at last
      exact absurd last (by decide +kernel)
    · rw [wildcard options]

end SessionMethod

section Requests
variable {req : Request}

/-- The path is empty where the query comes first. -/
theorem pathOf_eq_nil_iff (given : req.uri ≠ []) : pathOf req = [] ↔ req.uri.head? = some 63 := by
  unfold pathOf before
  cases same : req.uri with
  | nil => exact absurd same given
  | cons first rest =>
    by_cases query : first = 63
    · subst query
      simp
    · split
      · simp [query]
      · simp [query]

theorem queryHandler_rtsp (scheme : ascii "RTSP/" <+: req.schemeVersion) :
    queryHandler routeTable req = lookup routesTable (ascii "RTSP") req.method (pathOf req) := by
  rw [routeTable_eq, queryHandler_registerAll]
  exact congrArg (lookup routesTable · req.method (pathOf req)) ((before_eq_iff (by decide)).mpr ⟨by decide, scheme⟩)

end Requests

section Invoking
variable {prims : Primitives} (env : Environment) (date : DateText) {req : Request}

/-- What is posted is what the handler makes of a new response, with the common headers. -/
def Invokes (prims : Primitives) (env : Environment) (date : DateText) (req : Request) (handler : Handler) : Prop :=
  (processRequest env date req : Handling prims (Option Response)) =
    handler.run env req (.new req.schemeVersion) >>= fun res => pure (some (addCommonHeader env date req res))

theorem invokes_of_routed {handler : Handler} (found : queryHandler routeTable req = .ok handler) :
    Invokes prims env date req handler := by
  apply processRequest_eq
  rw [routed, found]
  rfl

theorem addCommonHeader_contentType (res : Response) : (addCommonHeader env date req res).contentType = res.contentType := by
  unfold addCommonHeader
  cases req.headers.find? HEADER_CSEQ <;> split_ifs <;> rfl

/-- A path that is not found is answered, but without the type of content that `OPTIONS` gives. -/
theorem not_invokes_options (lost : queryHandler routeTable req = .error .unknownPath) :
    ¬ Invokes prims env date req .options := by
  intro invokes
  unfold Invokes processRequest at invokes
  rw [lost] at invokes
  have posted := congrArg (fun handling => (handling.run (⟨.new prims 0 0 default true, .new 0, .empty, 0⟩ : World prims)).value) invokes
  have same : addCommonHeader env date req ((Response.new req.schemeVersion).withStatus ok) = addCommonHeader env date req
      (((Response.new req.schemeVersion).withStatus ok).withHeader _ _ |>.withContentType APPLICATION_OCTET_STREAM) :=
    Option.some.inj (Except.ok.inj posted)
  have types := congrArg (fun res : Response => res.contentType) same
  simp only [addCommonHeader_contentType] at types
  have empty : [] = APPLICATION_OCTET_STREAM := types
  exact absurd empty (by decide)

/-- A request of a session-level method invokes its handler; `OPTIONS` does so only where the path is empty. -/
theorem session_method_invoked_iff (scheme : ascii "RTSP/" <+: req.schemeVersion) (given : req.uri ≠ [])
    {method : SessionMethod} (named : req.method = method.name) :
    Invokes prims env date req method.handler ↔ (method = .options → req.uri.head? = some 63) := by
  have query := queryHandler_rtsp scheme
  rw [named] at query
  rw [← pathOf_eq_nil_iff given]
  constructor
  · rintro invokes rfl
    by_contra nonempty
    exact not_invokes_options env date (query.trans (SessionMethod.lookup_options nonempty)) invokes
  · intro empty
    exact invokes_of_routed env date (query.trans (SessionMethod.lookup_handler empty))

/-- The query of the URI leaves nothing in front of it. -/
theorem options_query_invoked :
    Invokes default still someDate (.new (ascii "RTSP/1.0") (ascii "OPTIONS") (ascii "?")) .options :=
  (@session_method_invoked_iff default still someDate (.new (ascii "RTSP/1.0") (ascii "OPTIONS") (ascii "?")) (by decide)
    (by decide) .options rfl).mpr fun _ => rfl

def optionsParse : Bool × Parser × Request :=
  (Parser.fresh.parseRequest (.new [] [] []) Parser.optionsHead).getD (false, .fresh, .new [] [] [])

/-- The usual URI of `OPTIONS`, in a head that the parser accepts, does not reach the handler. -/
theorem options_asterisk_not_invoked :
    ¬ ∀ (data : Bytes) (method : SessionMethod) (p : Parser) (req : Request),
      Parser.fresh.parseRequest (.new [] [] []) data = some (true, p, req) → ascii "RTSP/" <+: req.schemeVersion →
      req.uri ≠ [] → req.method = method.name → Invokes default still someDate req method.handler := by
  intro all
  have invokes := all Parser.optionsHead .options optionsParse.2.1 optionsParse.2.2 (by decide +kernel) (by decide +kernel)
    (by decide +kernel) (by decide +kernel)
  exact not_invokes_options still someDate (by decide +kernel) invokes

end Invoking

end Apsdk.Airplay
