import Apsdk.RequestRoutes

/-! The route table as a flat one: three nested maps hold, for every scheme, method and
path, the handler that was registered last, and tell what is missing where there is none. -/

namespace Apsdk
open Library

namespace RequestRouteTable
variable {Handler : Type}

theorem before_of_split {stop : UInt8} {word : Bytes} (absent : stop ∉ word) (rest : Bytes) :
    before stop (word ++ stop :: rest) = some word := by
  rw [before, if_pos (by simp), takeWhile_ne_append absent]

/-- The part in front of the first stop, as a prefix of the text. -/
theorem before_eq_iff {stop : UInt8} {text word : Bytes} (named : word ≠ []) :
    (before stop text).getD [] = word ↔ stop ∉ word ∧ word ++ [stop] <+: text := by
  constructor
  · intro same
    by_cases inside : stop ∈ text
    · obtain ⟨first, rest, rfl, absent⟩ := List.eq_append_cons_of_mem inside
      rw [before_of_split absent, Option.getD_some] at same
      subst same
      exact ⟨absent, rest, by simp⟩
    · rw [before, if_neg inside] at same
      exact absurd same.symm named
  · rintro ⟨absent, rest, rfl⟩
    rw [List.append_assoc, List.singleton_append, before_of_split absent, Option.getD_some]

/-- The scheme and the path that a request is looked up under. -/
def schemeOf (req : Request) : Bytes := (before 47 req.schemeVersion).getD []

def pathOf (req : Request) : Bytes := (before 63 req.uri).getD req.uri

/-- The table after a sequence of registrations. -/
def registerAll (routes : List (RequestRoute Handler)) : RequestRouteTable Handler :=
  routes.foldl registerRequestRoute .empty

section Flat
variable (routes : List (RequestRoute Handler)) (scheme method path : Bytes)

/-- The handler that was registered last for a scheme, a method and a path. -/
def lastHandler : Option Handler :=
  (routes.reverse.find? fun route => route.scheme = scheme ∧ route.method = method ∧ route.path = path).map
    RequestRoute.handler

def lookup : Except RouteError Handler :=
  match lastHandler routes scheme method path with
  | some handler => .ok handler
  | none =>
    match lastHandler routes scheme method (ascii "*") with
    | some handler => .ok handler
    | none =>
      if ∀ route ∈ routes, route.scheme ≠ scheme then .error .unknownScheme
      else if ∀ route ∈ routes, route.scheme = scheme → route.method ≠ method then .error .unknownMethod
      else .error .unknownPath

end Flat

section Nested
variable (table : RequestRouteTable Handler) (route : RequestRoute Handler) (scheme method path : Bytes)

def methodsAt : MethodMap Handler := (table.find? scheme).getD .empty

def pathsAt : PathMap Handler := ((methodsAt table scheme).find? method).getD .empty

def handlerAt : Option Handler := (pathsAt table scheme method).find? path

/-- The three branches insert alike, into the maps that are there or into empty ones. -/
theorem registerRequestRoute_eq : table.registerRequestRoute route =
    table.insert route.scheme ((methodsAt table route.scheme).insert route.method
      ((pathsAt table route.scheme route.method).insert route.path route.handler)) := by
  unfold registerRequestRoute pathsAt methodsAt
  cases table.find? route.scheme with
  | none => rfl
  | some methodPath => cases found : methodPath.find? route.method <;> simp only [found, Option.getD_some, Option.getD_none]

theorem methodsAt_register : methodsAt (table.registerRequestRoute route) scheme =
    if route.scheme = scheme then
      (methodsAt table scheme).insert route.method ((pathsAt table scheme route.method).insert route.path route.handler)
    else methodsAt table scheme := by
  rw [methodsAt, registerRequestRoute_eq, SortedMap.find?_insert]
  split
  · rename_i same
    rw [same, Option.getD_some]
  · rfl

theorem pathsAt_register : pathsAt (table.registerRequestRoute route) scheme method =
    if route.scheme = scheme ∧ route.method = method then
      (pathsAt table scheme method).insert route.path route.handler
    else pathsAt table scheme method := by
  rw [pathsAt, methodsAt_register]
  by_cases sameScheme : route.scheme = scheme
  · rw [if_pos sameScheme, SortedMap.find?_insert]
    by_cases sameMethod : route.method = method
    · rw [if_pos sameMethod, if_pos ⟨sameScheme, sameMethod⟩, sameMethod, Option.getD_some]
    · rw [if_neg sameMethod, if_neg fun both => sameMethod both.2, pathsAt]
  · rw [if_neg sameScheme, if_neg fun both => sameScheme both.1, pathsAt]

/-- A registration is a write to one place of the flat table. -/
theorem handlerAt_register : handlerAt (table.registerRequestRoute route) scheme method path =
    if route.scheme = scheme ∧ route.method = method ∧ route.path = path then some route.handler
    else handlerAt table scheme method path := by
  rw [handlerAt, pathsAt_register]
  by_cases same : route.scheme = scheme ∧ route.method = method
  · rw [if_pos same, SortedMap.find?_insert, handlerAt]
    by_cases samePath : route.path = path
    · rw [if_pos samePath, if_pos ⟨same.1, same.2, samePath⟩]
    · rw [if_neg samePath, if_neg fun all => samePath all.2.2]
  · rw [if_neg same, if_neg fun all => same ⟨all.1, all.2.1⟩, handlerAt]

theorem scheme_registered : ((table.registerRequestRoute route).find? scheme).isSome = true ↔
    route.scheme = scheme ∨ (table.find? scheme).isSome = true := by
  rw [registerRequestRoute_eq, SortedMap.find?_insert]
  by_cases same : route.scheme = scheme <;> simp [same]

theorem method_registered : ((methodsAt (table.registerRequestRoute route) scheme).find? method).isSome = true ↔
    (route.scheme = scheme ∧ route.method = method) ∨ ((methodsAt table scheme).find? method).isSome = true := by
  rw [methodsAt_register]
  by_cases sameScheme : route.scheme = scheme
  · rw [if_pos sameScheme, SortedMap.find?_insert]
    by_cases sameMethod : route.method = method <;> simp [sameScheme, sameMethod]
  · simp [sameScheme]

/-- The lookup: the exact path, then the wildcard, then what is missing. -/
theorem queryHandler_cases (req : Request) : queryHandler table req =
    match handlerAt table (schemeOf req) req.method (pathOf req) with
    | some handler => .ok handler
    | none =>
      match handlerAt table (schemeOf req) req.method (ascii "*") with
      | some handler => .ok handler
      | none =>
        if (table.find? (schemeOf req)).isSome then
          if ((methodsAt table (schemeOf req)).find? req.method).isSome then .error .unknownPath
          else .error .unknownMethod
        else .error .unknownScheme := by
  unfold queryHandler handlerAt pathsAt methodsAt schemeOf pathOf
  dsimp only
  cases table.find? ((before 47 req.schemeVersion).getD []) with
  | none => rfl
  | some methodPath =>
    cases found : methodPath.find? req.method with
    | none =>
      simp only [found, Option.getD_some, Option.isSome_some, if_true]
      rfl
    | some paths =>
      simp only [found, Option.getD_some]
      rfl

end Nested

section Registrations
variable (routes : List (RequestRoute Handler)) (route : RequestRoute Handler) (scheme method path : Bytes)

theorem registerAll_concat : registerAll (routes ++ [route]) = (registerAll routes).registerRequestRoute route :=
  List.foldl_concat ..

theorem lastHandler_concat : lastHandler (routes ++ [route]) scheme method path =
    if route.scheme = scheme ∧ route.method = method ∧ route.path = path then some route.handler
    else lastHandler routes scheme method path := by
  rw [lastHandler, List.reverse_concat, List.find?_cons]
  by_cases same : route.scheme = scheme ∧ route.method = method ∧ route.path = path
  · simp only [same, and_self, decide_true, if_true, Option.map_some]
  · simp only [same, decide_false, if_false, lastHandler]

/-- The last write to a place is what is found there. -/
theorem handlerAt_registerAll : handlerAt (registerAll routes) scheme method path = lastHandler routes scheme method path := by
  induction routes using List.reverseRecOn with
  | nil => rfl
  | append_singleton earlier route ih =>
    rw [registerAll_concat, handlerAt_register, ih, lastHandler_concat]

theorem scheme_known : ((registerAll routes).find? scheme).isSome = true ↔ ∃ route ∈ routes, route.scheme = scheme := by
  induction routes using List.reverseRecOn with
  | nil => simp [registerAll]
  | append_singleton earlier route ih =>
    rw [registerAll_concat, scheme_registered, ih]
    simp only [List.mem_append, List.mem_singleton, or_and_right, exists_or, exists_eq_left]
    exact or_comm

theorem method_known : ((methodsAt (registerAll routes) scheme).find? method).isSome = true ↔
    ∃ route ∈ routes, route.scheme = scheme ∧ route.method = method := by
  induction routes using List.reverseRecOn with
  | nil => simp [registerAll, methodsAt]
  | append_singleton earlier route ih =>
    rw [registerAll_concat, method_registered, ih]
    simp only [List.mem_append, List.mem_singleton, or_and_right, exists_or, exists_eq_left]
    exact or_comm

theorem queryHandler_registerAll (req : Request) :
    queryHandler (registerAll routes) req = lookup routes (schemeOf req) req.method (pathOf req) := by
  have scheme := scheme_known routes (schemeOf req)
  have method := method_known routes (schemeOf req) req.method
  rw [queryHandler_cases, handlerAt_registerAll, handlerAt_registerAll, lookup]
  cases lastHandler routes (schemeOf req) req.method (pathOf req) with
  | some handler => rfl
  | none =>
    cases lastHandler routes (schemeOf req) req.method (ascii "*") with
    | some handler => rfl
    | none =>
      dsimp only
      have noScheme : (∀ route ∈ routes, route.scheme ≠ schemeOf req) ↔ ¬ ∃ route ∈ routes, route.scheme = schemeOf req := by
        simp only [not_exists, not_and, ne_eq]
      have noMethod : (∀ route ∈ routes, route.scheme = schemeOf req → route.method ≠ req.method) ↔
          ¬ ∃ route ∈ routes, route.scheme = schemeOf req ∧ route.method = req.method := by
        simp only [not_exists, not_and, ne_eq]
      simp only [scheme, method, noScheme, noMethod, ite_not]

/-- A route of another scheme or method shows only to requests of a scheme that is new. -/
theorem lookup_other (apart : ¬ (route.scheme = scheme ∧ route.method = method)) :
    lookup (routes ++ [route]) scheme method path =
      if (∀ other ∈ routes, other.scheme ≠ scheme) ∧ route.scheme = scheme then .error .unknownMethod
      else lookup routes scheme method path := by
  have same : ∀ path, lastHandler (routes ++ [route]) scheme method path = lastHandler routes scheme method path := by
    intro path
    rw [lastHandler_concat, if_neg fun all => apart ⟨all.1, all.2.1⟩]
  have absent : (∀ other ∈ routes, other.scheme ≠ scheme) → ∀ path, lastHandler routes scheme method path = none := by
    intro none path
    rw [lastHandler, List.find?_eq_none.mpr fun other member => by simp [none other (List.mem_reverse.mp member)]]
    rfl
  have known : (∀ other ∈ routes ++ [route], other.scheme ≠ scheme) ↔
      (∀ other ∈ routes, other.scheme ≠ scheme) ∧ route.scheme ≠ scheme := by
    rw [List.forall_mem_append, List.forall_mem_singleton]
  have offered : (∀ other ∈ routes ++ [route], other.scheme = scheme → other.method ≠ method) ↔
      ∀ other ∈ routes, other.scheme = scheme → other.method ≠ method := by
    rw [List.forall_mem_append, List.forall_mem_singleton]
    exact and_iff_left fun sameScheme sameMethod => apart ⟨sameScheme, sameMethod⟩
  simp only [lookup, same, known, offered]
  by_cases first : ∀ other ∈ routes, other.scheme ≠ scheme
  · have none : ∀ other ∈ routes, other.scheme = scheme → other.method ≠ method :=
      fun other member here => absurd here (first other member)
    simp only [absent first, if_pos none]
    by_cases opens : route.scheme = scheme
    · rw [if_neg fun both => both.2 opens, if_pos ⟨first, opens⟩]
    · rw [if_pos ⟨first, opens⟩, if_neg fun both => opens both.2, if_pos first]
  · simp only [first, false_and, if_false]

end Registrations

section Lookup
variable (routes : List (RequestRoute Handler)) (req : Request)

/-- The nested maps answer like the flat table, in which the last registration counts; a route
of another scheme or method changes no result but the one that the scheme is unknown. -/
theorem queryHandler_registered :
    queryHandler (registerAll routes) req = lookup routes (schemeOf req) req.method (pathOf req) ∧
    ∀ route : RequestRoute Handler, ¬ (route.scheme = schemeOf req ∧ route.method = req.method) →
      queryHandler (registerAll (routes ++ [route])) req =
        if (∀ other ∈ routes, other.scheme ≠ schemeOf req) ∧ route.scheme = schemeOf req then .error .unknownMethod
        else queryHandler (registerAll routes) req := by
  refine ⟨queryHandler_registerAll routes req, ?_⟩
  intro route apart
  rw [queryHandler_registerAll, queryHandler_registerAll]
  exact lookup_other routes route _ _ _ apart

end Lookup

/-- The first route of a scheme makes known that a request has no other method. -/
theorem first_route_shows : ¬ ∀ (routes : List (RequestRoute Unit)) (route : RequestRoute Unit) (req : Request),
    ¬ (route.scheme = schemeOf req ∧ route.method = req.method) →
      queryHandler (registerAll (routes ++ [route])) req = queryHandler (registerAll routes) req := by
  intro unchanged
  have same := unchanged [] ⟨ascii "RTSP", ascii "OPTIONS", [], ()⟩ (.new (ascii "RTSP/1.0") (ascii "SETUP") (ascii "*"))
    (by decide +kernel)
  revert same
  decide +kernel

end RequestRouteTable

theorem Airplay.routeTable_eq : Airplay.routeTable = RequestRouteTable.registerAll Airplay.routesTable := rfl

end Apsdk
