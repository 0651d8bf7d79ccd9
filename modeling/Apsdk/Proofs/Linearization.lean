import Apsdk.Proofs.Conversations

/-! The conversations of all connections of a service at once. However they interleave, the requests are
handled as whole calls one after the other, so that the service passes through states of its own only. -/

namespace Apsdk
open Library Airplay

section Parties
variable {Index Entry Other : Type} [DecidableEq Index]

/-- What belongs to one of the connections. -/
def ofParty (index : Index) (entries : List (Index × Entry)) : List Entry :=
  entries.filterMap fun entry => if entry.1 = index then some entry.2 else none

theorem ofParty_append (index : Index) (first second : List (Index × Entry)) :
    ofParty index (first ++ second) = ofParty index first ++ ofParty index second :=
  List.filterMap_append

theorem ofParty_own (index : Index) (entries : List Entry) : ofParty index (entries.map fun entry => (index, entry)) = entries := by
  simp [ofParty, List.filterMap_map]

theorem ofParty_other {index other : Index} (differs : other ≠ index) (entries : List Entry) :
    ofParty index (entries.map fun entry => (other, entry)) = [] := by
  simp [ofParty, List.filterMap_map, differs]

theorem mem_ofParty {index : Index} {entry : Entry} {entries : List (Index × Entry)} (member : (index, entry) ∈ entries) :
    entry ∈ ofParty index entries :=
  List.mem_filterMap.mpr ⟨_, member, if_pos rfl⟩

/-- Lists that correspond entry by entry do so for each connection. -/
theorem forall₂_ofParty (related : Entry → Other → Prop) {entries : List (Index × Entry)} {others : List (Index × Other)}
    (all : List.Forall₂ (fun entry other => entry.1 = other.1 ∧ related entry.2 other.2) entries others) (index : Index) :
    List.Forall₂ related (ofParty index entries) (ofParty index others) := by
  induction all with
  | nil => exact .nil
  | @cons entry other entries others both _ ih =>
    obtain ⟨own, entry⟩ := entry
    obtain ⟨_, other⟩ := other
    obtain ⟨rfl, holds⟩ := both
    by_cases mine : own = index
    · simp only [ofParty, List.filterMap_cons, mine, if_true]
      exact .cons holds ih
    · simp only [ofParty, List.filterMap_cons, mine, if_false]
      exact ih

end Parties

section Linearized
variable {Index State Input : Type} [DecidableEq Index] {servers : Index → Server State Input} {asks : Index → List Ask}
  {first shared : Shared Index State} {state next final : Exchanges Index State} {answers outputs : List (Index × Response)}
  {log : List (Index × Ask × Input)} {posts : List (Index × Response)}

/-- The requests of `log` have been handled one after the other, which leaves every conversation at a stage of its own. -/
structure Linearized (servers : Index → Server State Input) (asks : Index → List Ask) (first : Shared Index State)
    (state : Exchanges Index State) (answers : List (Index × Response)) (log : List (Index × Ask × Input))
    (shared : Shared Index State) (posts : List (Index × Response)) : Prop where
  ran : Machine.run (calls servers) first log = some (shared, posts)
  world : state.world = shared.world
  stages : ∀ index, ∃ spent, Stage (asks index) spent ((ofParty index log).map Prod.fst) (ofParty index posts)
    (shared.requests index) (state.parties index) (ofParty index answers)

theorem Linearized.step (prompt : ∀ index, (servers index).Prompt (asks index))
    (linearized : Linearized servers asks first state answers log shared posts) {event : Index × ExchangeEvent Input}
    (taken : exchanges servers state event = some (next, outputs)) :
    ∃ log shared posts, Linearized servers asks first next (answers ++ outputs) log shared posts := by
  obtain ⟨index, event⟩ := event
  simp only [exchanges] at taken
  obtain ⟨⟨party, read⟩, stepped, taken⟩ := Option.bind_eq_some_iff.mp taken
  obtain ⟨rfl, rfl⟩ := Prod.mk.inj (Option.some.inj taken)
  obtain ⟨spent, stage⟩ := linearized.stages index
  rcases (stage.elsewhere state.world).step (prompt index) stepped with ⟨same, further⟩ | ⟨ask, input, res, called, further⟩
  · refine ⟨log, shared, posts, linearized.ran, same.trans linearized.world, fun other => ?_⟩
    by_cases own : other = index
    · subst own
      simp only [Function.update_self, ofParty_append, ofParty_own]
      exact ⟨_, further⟩
    · simp only [Function.update_of_ne own, ofParty_append, ofParty_other (Ne.symm own), List.append_nil]
      exact linearized.stages other
  · have known : (servers index).respond input (requestOf ask.head (shared.requests index) ask.body) shared.world =
        some (party.world, some res) := by
      rw [← linearized.world]
      exact called
    have call := @Server.call_of_respond _ _ (servers index) ⟨shared.requests index, shared.world⟩ ask input _ _ known
    refine ⟨log ++ [(index, ask, input)],
      ⟨Function.update shared.requests index (requestOf ask.head (shared.requests index) ask.body), party.world⟩,
      posts ++ [(index, res)], ?_, rfl, fun other => ?_⟩
    · refine Machine.run_concat_eq_some.mpr ⟨shared, posts, [(index, res)], linearized.ran, ?_, rfl⟩
      simp only [calls, call, Option.bind_eq_bind, Option.bind_some]
      rfl
    · by_cases own : other = index
      · subst own
        have entry : ofParty other [(other, ask, input)] = [(ask, input)] := ofParty_own other [(ask, input)]
        have post : ofParty other [(other, res)] = [res] := ofParty_own other [res]
        simp only [Function.update_self, ofParty_append, ofParty_own, entry, post, List.map_append]
        exact ⟨_, further⟩
      · have entry : ofParty other [(index, ask, input)] = [] := ofParty_other (Ne.symm own) [(ask, input)]
        have post : ofParty other [(index, res)] = [] := ofParty_other (Ne.symm own) [res]
        simp only [Function.update_of_ne own, ofParty_append, ofParty_other (Ne.symm own), entry, post, List.append_nil]
        exact linearized.stages other

theorem run_linearized (prompt : ∀ index, (servers index).Prompt (asks index))
    (linearized : Linearized servers asks first state answers log shared posts) {events : List (Index × ExchangeEvent Input)}
    (ran : Machine.run (exchanges servers) state events = some (final, outputs)) :
    ∃ log shared posts, Linearized servers asks first final (answers ++ outputs) log shared posts := by
  induction events generalizing state answers outputs log shared posts with
  | nil =>
    obtain ⟨rfl, rfl⟩ : state = final ∧ [] = outputs := by simpa using ran
    rw [List.append_nil]
    exact ⟨log, shared, posts, linearized⟩
  | cons event later ih =>
    obtain ⟨middle, before, rest, taken, continued, rfl⟩ := Machine.run_cons_eq_some.mp ran
    obtain ⟨log', shared', posts', further⟩ := linearized.step prompt taken
    rw [← List.append_assoc]
    exact ih further continued

/-- The requests of all connections are handled as whole calls, one after the other, and those of each in its order. No
connection keeps another from going on. -/
theorem exchanges_linearized (prompt : ∀ index, (servers index).Prompt (asks index)) {world : State}
    {events : List (Index × ExchangeEvent Input)}
    (ran : Machine.run (exchanges servers) (.start asks world) events = some (final, answers)) :
    ∃ log shared posts, Machine.run (calls servers) ⟨fun _ => .blank 0, world⟩ log = some (shared, posts) ∧
      final.world = shared.world ∧ ∀ index, (ofParty index log).map Prod.fst <+: asks index ∧
        ofParty index answers <+: (ofParty index posts).map Response.received ∧
        (ofParty index posts).length ≤ (ofParty index answers).length + 1 ∧
        ((∀ ask ∈ asks index, ∀ request, ∃ input,
            ((servers index).respond input (requestOf ask.head request ask.body) final.world).isSome = true) →
          (∀ event, exchanges servers final (index, event) = none) →
          asks index = (ofParty index log).map Prod.fst ∧
            ofParty index answers = (ofParty index posts).map Response.received) := by
  have begun : Linearized servers asks ⟨fun _ => .blank 0, world⟩ (.start asks world) [] [] ⟨fun _ => .blank 0, world⟩ [] :=
    ⟨rfl, rfl, fun _ => ⟨0, start_stage⟩⟩
  obtain ⟨log, shared, posts, linearized⟩ := run_linearized prompt begun ran
  rw [List.nil_append] at linearized
  refine ⟨log, shared, posts, linearized.ran, linearized.world, fun index => ?_⟩
  obtain ⟨spent, stage⟩ := linearized.stages index
  obtain ⟨begun, read, nearly, -, settled⟩ := stage.summary
  refine ⟨begun, read, nearly, fun returns ended => ?_⟩
  have stuck : ∀ event, (servers index).exchange { final.parties index with world := final.world } event = none := by
    intro event
    cases taken : (servers index).exchange { final.parties index with world := final.world } event with
    | none => rfl
    | some next =>
      have enabled := ended event
      simp only [exchanges, taken, Option.bind_eq_bind, Option.bind_some] at enabled
      cases enabled
  obtain ⟨free, sent⟩ := (stage.elsewhere final.world).over (prompt index) returns stuck
  obtain ⟨split, all⟩ := settled free
  have sent' : (final.parties index).unsent = [] := sent
  rw [sent', List.append_nil] at split
  exact ⟨split, all⟩

end Linearized
section Calls
variable {Index State Input : Type} [DecidableEq Index] {servers : Index → Server State Input}

/-- A relation between a request and each response that can be given to it, throughout whole calls. -/
theorem calls_related (related : Ask → Response → Prop) {log : List (Index × Ask × Input)} {first last : Shared Index State}
    {posts : List (Index × Response)}
    (each : ∀ entry ∈ log, ∀ request world next posted,
      (servers entry.1).respond entry.2.2 (requestOf entry.2.1.head request entry.2.1.body) world = some (next, posted) →
        ∃ res, posted = some res ∧ related entry.2.1 res)
    (ran : Machine.run (calls servers) first log = some (last, posts)) :
    List.Forall₂ (fun entry post => entry.1 = post.1 ∧ related entry.2.1 post.2) log posts := by
  induction log generalizing first posts with
  | nil =>
    obtain ⟨-, rfl⟩ : first = last ∧ [] = posts := by simpa using ran
    exact .nil
  | cons entry later ih =>
    obtain ⟨middle, before, rest, taken, continued, rfl⟩ := Machine.run_cons_eq_some.mp ran
    simp only [calls] at taken
    obtain ⟨⟨between, posts⟩, called, taken⟩ := Option.bind_eq_some_iff.mp taken
    obtain ⟨rfl, rfl⟩ := Prod.mk.inj (Option.some.inj taken)
    obtain ⟨posted, responded, -, rfl⟩ := Server.respond_of_call called
    obtain ⟨res, rfl, holds⟩ := each entry List.mem_cons_self _ _ _ _ responded
    exact .cons ⟨rfl, holds⟩ (ih (fun entry member => each entry (List.mem_cons_of_mem _ member)) continued)

end Calls

namespace Airplay

variable {prims : Primitives} {id : Nat} {surroundings : Surroundings} {req : Request} {posted : Option Response}

theorem server_respond {world next : World prims} (called : (server prims).respond surroundings req world = some (next, posted)) :
    ((processRequest surroundings.env surroundings.date req).run world).value = .ok posted ∧
      ((processRequest surroundings.env surroundings.date req).run world).state = next := by
  simp only [server] at called
  split at called
  next posted' value =>
    split_ifs at called
    obtain ⟨rfl, rfl⟩ := Prod.mk.inj (Option.some.inj called)
    exact ⟨value, rfl⟩
  next => cases called

theorem serverOf_respond {service next : Service prims}
    (called : (serverOf prims id).respond surroundings req service = some (next, posted)) :
    ∃ conn world, service.members.find? id = some ⟨conn, true⟩ ∧ conn.isReversed = false ∧
      (server prims).respond (surroundings.within service) req (service.world conn) = some (world, posted) ∧
      next = service.update id world := by
  simp only [serverOf] at called
  split at called
  next conn found =>
    split_ifs at called with reversed
    obtain ⟨⟨world, posted⟩, responded, called⟩ := Option.bind_eq_some_iff.mp called
    obtain ⟨rfl, rfl⟩ := Prod.mk.inj (Option.some.inj called)
    exact ⟨conn, world, found, Bool.eq_false_iff.mpr reversed, responded, rfl⟩
  next => cases called

/-- What a connection of the service is asked is a request of the service. -/
theorem step_of_respond {service next : Service prims}
    (called : (serverOf prims id).respond surroundings req service = some (next, posted)) :
    ∃ observations, Service.step service (.request id ⟨surroundings.env, surroundings.date, req⟩) = some (next, observations) := by
  obtain ⟨conn, world, found, forward, responded, rfl⟩ := serverOf_respond called
  obtain ⟨value, rfl⟩ := server_respond responded
  have processed : (service.process ⟨surroundings.env, surroundings.date, req⟩ conn).value = .ok posted := value
  simp only [Service.step, found, forward, Bool.false_eq_true, if_false, processed]
  exact ⟨_, rfl⟩

/-- A request as the service dispatches it. -/
def Dispatches (ask : Ask) (dispatch : Dispatch) : Prop := ∃ request, dispatch.req = requestOf ask.head request ask.body

/-- Whole calls of its connections are a run of the service. -/
theorem steps_of_calls {log : List (Nat × Ask × Surroundings)} {first last : Shared Nat (Service prims)}
    {posts : List (Nat × Response)} (ran : Machine.run (calls (serverOf prims)) first log = some (last, posts)) :
    ∃ (dispatches : List (Nat × Dispatch)) (observations : List (Nat × Observation)), Machine.run Service.step first.world
        (dispatches.map fun entry => .request entry.1 entry.2) = some (last.world, observations) ∧
      List.Forall₂ (fun entry dispatch => entry.1 = dispatch.1 ∧ Dispatches entry.2.1 dispatch.2) log dispatches := by
  induction log generalizing first posts with
  | nil =>
    obtain ⟨rfl, -⟩ : first = last ∧ [] = posts := by simpa using ran
    exact ⟨[], [], rfl, .nil⟩
  | cons entry later ih =>
    obtain ⟨middle, before, rest, taken, continued, rfl⟩ := Machine.run_cons_eq_some.mp ran
    simp only [calls] at taken
    obtain ⟨⟨between, posts⟩, called, taken⟩ := Option.bind_eq_some_iff.mp taken
    obtain ⟨rfl, rfl⟩ := Prod.mk.inj (Option.some.inj taken)
    obtain ⟨posted, responded, -, rfl⟩ := Server.respond_of_call called
    obtain ⟨observed, stepped⟩ := step_of_respond responded
    obtain ⟨dispatches, observations, steps, all⟩ := ih continued
    let req := requestOf entry.2.1.head (first.requests entry.1) entry.2.1.body
    refine ⟨(entry.1, ⟨entry.2.2.env, entry.2.2.date, req⟩) :: dispatches, observed ++ observations, ?_, .cons ⟨rfl, _, rfl⟩ all⟩
    exact Machine.run_cons_eq_some.mpr ⟨_, observed, observations, stepped, steps, rfl⟩

variable {asks : Nat → List Ask}

theorem serverOf_answers {ask : Ask} (ordinary : Ordinary ask) {request : Request} {service next : Service prims}
    (called : (serverOf prims id).respond surroundings (requestOf ask.head request ask.body) service = some (next, posted)) :
    ∃ res, posted = some res ∧ res.Readable ∧ Answers ask.head res := by
  obtain ⟨conn, world, -, -, responded, -⟩ := serverOf_respond called
  exact ordinary.responds responded

theorem serverOf_prompt {asks : List Ask} (ordinary : ∀ ask ∈ asks, Ordinary ask) : (serverOf prims id).Prompt asks where
  forward := (@server_prompt prims asks ordinary).forward
  answers := by
    intro ask member request input service next posted called
    obtain ⟨res, some_, readable, -⟩ := serverOf_answers (ordinary ask member) called
    exact ⟨res, some_, readable⟩

variable {service : Service prims} {events : List (Nat × ExchangeEvent Surroundings)} {final : Exchanges Nat (Service prims)}
  {answers : List (Nat × Response)}

/-- While each of its clients waits for its responses, a service goes through what it would go through if whole requests came
to it one after the other, however the bytes of its connections mix. Each connection's requests are
among them in its order and are answered to it by a response each, all of them where its handlers return. -/
theorem connections_answered (ordinary : ∀ id, ∀ ask ∈ asks id, Ordinary ask)
    (ran : Machine.run (exchanges (serverOf prims)) (.start asks service) events = some (final, answers)) :
    ∃ (dispatches : List (Nat × Dispatch)) (observations : List (Nat × Observation)),
      Machine.run Service.step service (dispatches.map fun entry => .request entry.1 entry.2) = some (final.world, observations) ∧
      ∀ id, ∃ done posts, done <+: asks id ∧ List.Forall₂ Dispatches done (ofParty id dispatches) ∧
        List.Forall₂ (fun ask res => Answers ask.head res) done posts ∧
        ofParty id answers <+: posts.map Response.received ∧ posts.length ≤ (ofParty id answers).length + 1 ∧
        ((∀ ask ∈ asks id, ∀ request, ∃ surroundings,
            ((serverOf prims id).respond surroundings (requestOf ask.head request ask.body) final.world).isSome = true) →
          (∀ event, exchanges (serverOf prims) final (id, event) = none) →
          done = asks id ∧ ofParty id answers = posts.map Response.received) := by
  obtain ⟨log, shared, posts, called, same, parties⟩ := exchanges_linearized (fun id => serverOf_prompt (ordinary id)) ran
  obtain ⟨dispatches, observations, steps, all⟩ := steps_of_calls called
  have asked : ∀ entry ∈ log, entry.2.1 ∈ asks entry.1 := fun entry member =>
    (parties entry.1).1.subset (List.mem_map_of_mem (mem_ofParty member))
  have answered : List.Forall₂ (fun entry post => entry.1 = post.1 ∧ Answers entry.2.1.head post.2) log posts := by
    refine calls_related (fun ask res => Answers ask.head res) (fun entry member request service next posted responded => ?_) called
    obtain ⟨res, some_, -, answers⟩ := serverOf_answers (ordinary entry.1 _ (asked entry member)) responded
    exact ⟨res, some_, answers⟩
  refine ⟨dispatches, observations, same ▸ steps, fun id => ?_⟩
  obtain ⟨begun, read, nearly, settled⟩ := parties id
  have dispatched : List.Forall₂ Dispatches ((ofParty id log).map Prod.fst) (ofParty id dispatches) :=
    List.forall₂_map_left_iff.mpr
      (forall₂_ofParty (fun (entry : Ask × Surroundings) dispatch => Dispatches entry.1 dispatch) all id)
  have given : List.Forall₂ (fun ask res => Answers ask.head res) ((ofParty id log).map Prod.fst) (ofParty id posts) :=
    List.forall₂_map_left_iff.mpr
      (forall₂_ofParty (fun (entry : Ask × Surroundings) res => Answers entry.1.head res) answered id)
  refine ⟨_, _, begun, dispatched, given, read, nearly, fun returns ended => ?_⟩
  obtain ⟨whole, all⟩ := settled returns ended
  exact ⟨whole.symm, all⟩

/-- A service with two connections. -/
def pairOfConnections : Service default :=
  { (Service.start 0 : Service default) with
    next := 2
    members := (SortedMap.empty.insert 0 ⟨.new default 0 7 default true, true⟩).insert 1 ⟨.new default 1 8 default true, true⟩ }

/-- The second client is answered before the first. -/
def mixed : List (Nat × ExchangeEvent Surroundings) :=
  [(0, .send), (1, .send), (0, .received 9 stillSurroundings), (1, .received 100 stillSurroundings), (1, .wrote 0 20),
    (0, .received 100 stillSurroundings)]

theorem connections_answered_mixed :
    ∃ final answers, Machine.run (exchanges (serverOf default)) (.start (fun _ => [recordAsk]) pairOfConnections) mixed =
        some (final, answers) ∧
      ∃ (dispatches : List (Nat × Dispatch)) (observations : List (Nat × Observation)),
        Machine.run Service.step pairOfConnections (dispatches.map fun entry => .request entry.1 entry.2) =
          some (final.world, observations) ∧
        ∀ id, ∃ done posts, done <+: [recordAsk] ∧ List.Forall₂ Dispatches done (ofParty id dispatches) ∧
          List.Forall₂ (fun ask res => Answers ask.head res) done posts ∧
          ofParty id answers <+: posts.map Response.received ∧ posts.length ≤ (ofParty id answers).length + 1 := by
  have returned : (Machine.run (exchanges (serverOf default)) (.start (fun _ => [recordAsk]) pairOfConnections) mixed).isSome =
      true := by
    decide +kernel
  obtain ⟨⟨final, answers⟩, ran⟩ := Option.isSome_iff_exists.mp returned
  obtain ⟨dispatches, observations, steps, parties⟩ :=
    connections_answered (fun _ => List.forall_mem_singleton.mpr recordAsk_ordinary) ran
  refine ⟨final, answers, ran, dispatches, observations, steps, fun id => ?_⟩
  obtain ⟨done, posts, begun, dispatched, answered, read, nearly, -⟩ := parties id
  exact ⟨done, posts, begun, dispatched, answered, read, nearly⟩

end Airplay
end Apsdk
