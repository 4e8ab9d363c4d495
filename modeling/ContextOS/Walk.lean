import ContextOS.Endings

/-! The invoke stage in detail: which entries the walk over a chain of names visits, what
becomes of each, and which model a run is answered by. A visit keeps the entry as the walk
finds it; the spec and the adapter are those it was registered with, only the breaker
changes on the way. -/
namespace ContextOS
open Lib (bindOk)

variable {R : Type}

/-! ### Visits -/

inductive VisitOutcome where
  | skipped
  | replied (resp : ChatResponse)
  | raised (e : String)

structure Visit (R : Type) where
  hop : Nat
  entry : RegistryEntry R
  outcome : VisitOutcome

def Visit.request (v : Visit R) (messages : List ChatMessage) (maxTokens : Int) : ChatRequest :=
  ⟨v.entry.spec.modelId, messages, maxTokens⟩

def Visit.call (messages : List ChatMessage) (maxTokens : Int) (v : Visit R) : Option AdapterCall :=
  match v.outcome with
  | .skipped => none
  | .replied resp => some ⟨v.request messages maxTokens, .ok resp⟩
  | .raised e => some ⟨v.request messages maxTokens, .error e⟩

namespace Pipeline

def visits (env : Env) (messages : List ChatMessage) (maxTokens : Int) :
    Nat → List String → BackendRegistry R → List (Visit R)
  | _, [], _ => []
  | hop, name :: rest, reg =>
    match reg.get name with
    | none => visits env messages maxTokens (hop + 1) rest reg
    | some entry =>
      if !entry.breaker.allows (env.allowsAt hop) then
        ⟨hop, entry, .skipped⟩ :: visits env messages maxTokens (hop + 1) rest reg
      else
        match entry.adapter.generate (env.callToken hop) ⟨entry.spec.modelId, messages, maxTokens⟩ with
        | .ok resp => [⟨hop, entry, .replied resp⟩]
        | .error e =>
          ⟨hop, entry, .raised e⟩ :: visits env messages maxTokens (hop + 1) rest
            (reg.register { entry with breaker := entry.breaker.recordFailure (env.failedAt hop) })

theorem invokeRoutedCalls (env : Env) (messages : List ChatMessage) (maxTokens : Int) (hop : Nat)
    (names : List String) (reg : BackendRegistry R) :
    (invokeRouted env messages maxTokens hop names reg).calls =
      (visits env messages maxTokens hop names reg).filterMap (Visit.call messages maxTokens) := by
  induction names generalizing hop reg with
  | nil => rfl
  | cons name rest ih =>
    simp only [invokeRouted, visits]
    cases reg.get name with
    | none => exact ih (hop + 1) reg
    | some entry =>
      dsimp only
      split
      · exact ih (hop + 1) reg
      · cases entry.adapter.generate (env.callToken hop) ⟨entry.spec.modelId, messages, maxTokens⟩ with
        | ok resp => rfl
        | error e =>
          dsimp only
          rw [List.filterMap_cons, ih]
          rfl

structure VisitOf (env : Env) (messages : List ChatMessage) (maxTokens : Int) (names : List String)
    (reg : BackendRegistry R) (v : Visit R) (entry : RegistryEntry R) : Prop where
  named : v.entry.spec.name ∈ names
  registered : reg.get v.entry.spec.name = some entry
  spec : v.entry.spec = entry.spec
  adapter : v.entry.adapter = entry.adapter
  asked : ∀ call, v.call messages maxTokens = some call →
    call.reply = entry.adapter.generate (env.callToken v.hop) call.request

theorem VisitOf.later {env messages maxTokens names name} {reg : BackendRegistry R} {v : Visit R} {entry}
    (visit : VisitOf env messages maxTokens names reg v entry) :
    VisitOf env messages maxTokens (name :: names) reg v entry :=
  { visit with named := List.mem_cons_of_mem _ visit.named }

theorem visitRegistered {env : Env} {messages : List ChatMessage} {maxTokens : Int} {hop : Nat}
    {names : List String} {reg : BackendRegistry R} :
    ∀ v ∈ visits env messages maxTokens hop names reg, ∃ entry, VisitOf env messages maxTokens names reg v entry := by
  induction names generalizing hop reg with
  | nil => simp [visits]
  | cons name rest ih =>
    intro v member
    unfold visits at member
    split at member
    · obtain ⟨entry, visit⟩ := ih v member
      exact ⟨entry, visit.later⟩
    · rename_i entry found
      have own := reg.named name entry found
      subst own
      split at member
      · rcases List.mem_cons.mp member with rfl | later
        · exact ⟨entry, List.mem_cons_self, found, rfl, rfl, by simp [Visit.call]⟩
        · obtain ⟨entry, visit⟩ := ih v later
          exact ⟨entry, visit.later⟩
      · split at member
        · rename_i resp replied
          rw [List.mem_singleton] at member
          subst member
          refine ⟨entry, List.mem_cons_self, found, rfl, rfl, fun call made => ?_⟩
          cases Option.some.inj made
          exact replied.symm
        · rename_i e raised
          rcases List.mem_cons.mp member with rfl | later
          · refine ⟨entry, List.mem_cons_self, found, rfl, rfl, fun call made => ?_⟩
            cases Option.some.inj made
            exact raised.symm
          · obtain ⟨tripped, visit⟩ := ih v later
            -- what a later visit finds under this name is the entry with its breaker tripped
            rcases BackendRegistry.registeredEntry visit.registered with same | old
            · have name : v.entry.spec.name = entry.spec.name := by rw [visit.spec, same]
              exact ⟨entry, by rw [name]; exact List.mem_cons_self, by rw [name]; exact found,
                by rw [visit.spec, same], by rw [visit.adapter, same], by simpa only [same] using visit.asked⟩
            · exact ⟨tripped, { visit.later with registered := old }⟩

theorem repliedResult {env : Env} {messages : List ChatMessage} {maxTokens : Int} {hop : Nat} {names : List String}
    {reg : BackendRegistry R} {v : Visit R} {resp : ChatResponse}
    (member : v ∈ visits env messages maxTokens hop names reg) (replied : v.outcome = .replied resp) :
    (invokeRouted env messages maxTokens hop names reg).result = .ok (resp, v.entry.spec.name, v.entry.spec.modelId) := by
  induction names generalizing hop reg with
  | nil => simp [visits] at member
  | cons name rest ih =>
    simp only [visits] at member
    simp only [invokeRouted]
    cases found : reg.get name with
    | none =>
      rw [found] at member
      exact ih member
    | some entry =>
      have own := reg.named name entry found
      simp only [found] at member
      dsimp only
      split
      · rename_i refused
        simp only [refused, if_true] at member
        rcases List.mem_cons.mp member with rfl | later
        · contradiction
        · exact ih later
      · rename_i allowed
        simp only [allowed, Bool.false_eq_true, if_false] at member
        cases generated : entry.adapter.generate (env.callToken hop) ⟨entry.spec.modelId, messages, maxTokens⟩ with
        | ok answer =>
          simp only [generated, List.mem_singleton] at member
          subst member
          cases replied
          rw [← own]
        | error e =>
          simp only [generated] at member
          rcases List.mem_cons.mp member with rfl | later
          · contradiction
          · exact ih later

theorem resultReplied {env : Env} {messages : List ChatMessage} {maxTokens : Int} {hop : Nat} {names : List String}
    {reg : BackendRegistry R} {resp : ChatResponse} {used model : String}
    (ok : (invokeRouted env messages maxTokens hop names reg).result = .ok (resp, used, model)) :
    ∃ v ∈ visits env messages maxTokens hop names reg, v.outcome = .replied resp ∧ v.entry.spec.modelId = model := by
  induction names generalizing hop reg with
  | nil => simp [invokeRouted] at ok
  | cons name rest ih =>
    simp only [invokeRouted] at ok
    simp only [visits]
    cases found : reg.get name with
    | none =>
      rw [found] at ok
      exact ih ok
    | some entry =>
      simp only [found] at ok
      dsimp only
      split
      · rename_i refused
        simp only [refused, if_true] at ok
        obtain ⟨v, later, replied⟩ := ih ok
        exact ⟨v, List.mem_cons_of_mem _ later, replied⟩
      · rename_i allowed
        simp only [allowed, Bool.false_eq_true, if_false] at ok
        cases generated : entry.adapter.generate (env.callToken hop) ⟨entry.spec.modelId, messages, maxTokens⟩ with
        | ok answer =>
          simp only [generated, Except.ok.injEq, Prod.mk.injEq] at ok
          obtain ⟨rfl, _, rfl⟩ := ok
          exact ⟨_, List.mem_singleton_self _, rfl, rfl⟩
        | error e =>
          simp only [generated] at ok
          obtain ⟨v, later, replied⟩ := ih ok
          exact ⟨v, List.mem_cons_of_mem _ later, replied⟩

variable [PyFloat R] [Builtins]

/-! ### The model asked for -/

def KeepsModel (p : Pipeline R) (env : Env) (s : Stores R) (ctx : SecurityContext) (c : ChatCall)
    (prepared : Prepared R) : Prop :=
  ∀ router reg decision, p.routing s = some (router, reg) →
    router.route env.routeAt ctx c.prompt prepared.assembledTokens reg RouteFilters.none = .ok decision →
    ∀ v ∈ visits env prepared.messages c.maxTokens 0 (decision.backend :: decision.fallbackChain) reg,
      ∀ resp, v.outcome = .replied resp → v.entry.spec.modelId = p.chosenModel c

theorem keepsModelIff {p : Pipeline R} {env : Env} {s : Stores R} {ctx : SecurityContext} {c : ChatCall}
    {prepared : Prepared R} {resp : ChatResponse} {used model : String}
    (answer : p.answering env s ctx c prepared = .ok (resp, used, model)) :
    p.KeepsModel env s ctx c prepared ↔ model = p.chosenModel c := by
  unfold answering at answer
  split at answer
  · rename_i router reg routed
    obtain ⟨decision, ok, answer⟩ := bindOk.mp answer
    constructor
    · intro keeps
      obtain ⟨v, member, replied, rfl⟩ := resultReplied answer
      exact keeps router reg decision routed ok v member resp replied
    · intro same router' reg' decision' routed' ok' v member resp' replied
      obtain ⟨rfl, rfl⟩ := Prod.mk.inj (Option.some.inj (routed.symm.trans routed'))
      cases Except.ok.inj (ok.symm.trans ok')
      have result := (repliedResult member replied).symm.trans answer
      rw [← same]
      exact congrArg (fun answer => answer.2.2) (Except.ok.inj result)
  · rename_i single
    split at answer <;> try contradiction
    cases Except.ok.inj answer
    refine ⟨fun _ => rfl, fun _ router reg decision routed => ?_⟩
    rw [single] at routed
    contradiction

end Pipeline

structure AnsweredRun [PyFloat R] [Builtins] (p : Pipeline R) where
  env : Env
  stores : Stores R
  ctx : SecurityContext
  call : ChatCall
  found : List (MemoryCandidate R)
  prepared : Prepared R
  model : String
  resp : ChatResponse
  answered : Pipeline.Answered p env stores ctx call found prepared model resp

namespace AnsweredRun
variable [PyFloat R] [Builtins] {p : Pipeline R} (x : AnsweredRun p)

def out : Outcome R := p.run x.env x.stores x.ctx x.call

def KeepsModel : Prop := p.KeepsModel x.env x.stores x.ctx x.call x.prepared

theorem keepsIff : x.KeepsModel ↔ x.model = p.chosenModel x.call := by
  obtain ⟨used, answer⟩ := x.answered.answer
  exact Pipeline.keepsModelIff answer

end AnsweredRun
end ContextOS
