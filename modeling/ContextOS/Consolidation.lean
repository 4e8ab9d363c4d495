import ContextOS.Draining
import ContextOS.Executable

/-! The consolidation of a namespace, which the client hands to the background runner. It
writes one memory, the model's summary of the rows in scope, or it writes nothing; it asks
the model at most twice, and each time for a summary of the same rows. -/
namespace ContextOS
open Lib (Dict)

variable {R : Type} [PyFloat R]

-- what the closure of the job changes
structure ConsolidationJob (R : Type) where
  attempts : Nat
  result : Nat
  memories : InMemoryStore R
  calls : List AdapterCall

def consolidationRequest (rows : List (MemoryObject R)) : ChatRequest :=
  ⟨"consolidation", [⟨.user, App.consolidationPrompt rows⟩], 256⟩

def summaryRow (birth : Birth) (ctx : SecurityContext) (resp : ChatResponse) : MemoryObject R :=
  ⟨birth.id, ctx.tenantId, ctx.namespaceId, .semantic, strip resp.text, none, 0.7, birth.createdAt, birth.lastAccessedAt,
    ⟨"consolidation", none, birth.ingestedAt⟩, Dict.empty⟩

/-- `ask` is what the model replies to the first and to the second call. -/
inductive Consolidation (ask : Nat → Except String ChatResponse) (birth : Birth) (ctx : SecurityContext)
    (rows : List (MemoryObject R)) (before : InMemoryStore R) : Nat → InMemoryStore R → List AdapterCall → Prop where
  | few (few : rows.length < 2) : Consolidation ask birth ctx rows before 0 before []
  | first (enough : 2 ≤ rows.length) {resp : ChatResponse} (replied : ask 0 = .ok resp) :
      Consolidation ask birth ctx rows before rows.length (before.put ctx.tenantId birth.id (summaryRow birth ctx resp))
        [⟨consolidationRequest rows, .ok resp⟩]
  | retried (enough : 2 ≤ rows.length) {e : String} (raised : ask 0 = .error e) {resp : ChatResponse} (replied : ask 1 = .ok resp) :
      Consolidation ask birth ctx rows before rows.length (before.put ctx.tenantId birth.id (summaryRow birth ctx resp))
        [⟨consolidationRequest rows, .error e⟩, ⟨consolidationRequest rows, .ok resp⟩]
  | abandoned (enough : 2 ≤ rows.length) {e e' : String} (raised : ask 0 = .error e) (again : ask 1 = .error e') :
      Consolidation ask birth ctx rows before 0 before
        [⟨consolidationRequest rows, .error e⟩, ⟨consolidationRequest rows, .error e'⟩]

namespace App
variable (a : App R) (env : Env) (ctx : SecurityContext)

def consolidationJob (_ : Nat) (j : ConsolidationJob R) : Bool × ConsolidationJob R :=
  match a.consolidateNamespace env j.attempts j.memories ctx with
  | (.ok (n, memories), calls) => (true, ⟨j.attempts + 1, n, memories, j.calls ++ calls⟩)
  | (.error _, calls) => (false, ⟨j.attempts + 1, j.result, j.memories, j.calls ++ calls⟩)

-- the client's call is the runner's loop on its one job
theorem consolidateDrained (s : InMemoryStore R) :
    a.consolidate env s ctx = ((drainAlone (a.consolidationJob env ctx) 1 [(0, 0)] ⟨0, 0, s, []⟩).state.result,
      (drainAlone (a.consolidationJob env ctx) 1 [(0, 0)] ⟨0, 0, s, []⟩).state.memories,
      (drainAlone (a.consolidationJob env ctx) 1 [(0, 0)] ⟨0, 0, s, []⟩).state.calls) := by
  obtain ⟨first, calls, tried⟩ : ∃ result calls, a.consolidateNamespace env 0 s ctx = (result, calls) := ⟨_, _, rfl⟩
  obtain ⟨second, more, retried⟩ : ∃ result calls, a.consolidateNamespace env 1 s ctx = (result, calls) := ⟨_, _, rfl⟩
  cases first with
  | ok written => simp [consolidate, drainAlone, consolidationJob, tried]
  | error e => cases second <;> simp [consolidate, drainAlone, consolidationJob, tried, retried]

section Attempts
variable [IsStrictOrderedRing R] (s : InMemoryStore R)

theorem summaryWritten (birth : Birth) (resp : ChatResponse) :
    MemoryEngine.write birth s ctx ⟨strip resp.text, .semantic, 0.7, "consolidation", none, Dict.empty⟩ =
      .ok (summaryRow birth ctx resp, s.put ctx.tenantId birth.id (summaryRow birth ctx resp)) := by
  have inside : (0 : R) ≤ 0.7 ∧ (0.7 : R) ≤ 1 := by constructor <;> norm_num
  have added : s.addMemory ctx (summaryRow birth ctx resp) =
      .ok (s.put ctx.tenantId birth.id (summaryRow birth ctx resp)) := InMemoryStore.addedIff.mpr ⟨rfl, rfl, rfl⟩
  simp only [summaryRow] at added
  simp only [MemoryEngine.write, MemoryEngine.construct, inside, and_self, if_true, bind, Except.bind, added, pure, Except.pure,
    summaryRow]

variable {s}

omit [IsStrictOrderedRing R] in
theorem attemptFew (few : (MemoryEngine.allMemories s ctx 512).length < 2) (attempt : Nat) :
    a.consolidateNamespace env attempt s ctx = (.ok (0, s), []) := by
  simp only [consolidateNamespace, few, if_true]

variable {a env ctx} in
omit [IsStrictOrderedRing R] in
theorem attemptRaises (enough : 2 ≤ (MemoryEngine.allMemories s ctx 512).length) {attempt : Nat} {e : String}
    (raised : a.adapter.generate (env.callToken attempt) (consolidationRequest (MemoryEngine.allMemories s ctx 512)) = .error e) :
    a.consolidateNamespace env attempt s ctx =
      (.error ⟨.adapterError, e⟩, [⟨consolidationRequest (MemoryEngine.allMemories s ctx 512), .error e⟩]) := by
  have several : ¬ (MemoryEngine.allMemories s ctx 512).length < 2 := by omega
  simp only [consolidationRequest] at raised ⊢
  simp only [consolidateNamespace, several, if_false, raised]

variable {a env ctx} in
theorem attemptWrites (enough : 2 ≤ (MemoryEngine.allMemories s ctx 512).length) {attempt : Nat} {resp : ChatResponse}
    (replied : a.adapter.generate (env.callToken attempt) (consolidationRequest (MemoryEngine.allMemories s ctx 512)) = .ok resp) :
    a.consolidateNamespace env attempt s ctx =
      (.ok ((MemoryEngine.allMemories s ctx 512).length, s.put ctx.tenantId env.birth.id (summaryRow env.birth ctx resp)),
        [⟨consolidationRequest (MemoryEngine.allMemories s ctx 512), .ok resp⟩]) := by
  have several : ¬ (MemoryEngine.allMemories s ctx 512).length < 2 := by omega
  simp only [consolidationRequest] at replied ⊢
  simp only [consolidateNamespace, several, if_false, replied, summaryWritten]

theorem consolidated :
    Consolidation (fun attempt => a.adapter.generate (env.callToken attempt)
        (consolidationRequest (MemoryEngine.allMemories s ctx 512)))
      env.birth ctx (MemoryEngine.allMemories s ctx 512) s (a.consolidate env s ctx).1 (a.consolidate env s ctx).2.1
      (a.consolidate env s ctx).2.2 := by
  rcases Nat.lt_or_ge (MemoryEngine.allMemories s ctx 512).length 2 with few | enough
  · simp only [consolidate, attemptFew a env ctx few]
    exact .few few
  cases first : a.adapter.generate (env.callToken 0) (consolidationRequest (MemoryEngine.allMemories s ctx 512)) with
  | ok resp =>
    simp only [consolidate, attemptWrites enough first]
    exact .first enough first
  | error e =>
    cases second : a.adapter.generate (env.callToken 1) (consolidationRequest (MemoryEngine.allMemories s ctx 512)) with
    | ok resp =>
      simp only [consolidate, attemptRaises enough first, attemptWrites enough second]
      exact .retried enough first second
    | error e' =>
      simp only [consolidate, attemptRaises enough first, attemptRaises enough second]
      exact .abandoned enough first second

end Attempts

/-- Nothing else changes, and the model is asked about the first rows in scope, in their order. -/
theorem consolidates [IsStrictOrderedRing R] [Builtins] (s : AppState R) :
    ∃ n memories calls, a.step s ⟨ctx, env, .consolidate⟩ =
        ({ s with stores := { s.stores with memories := memories } }, ⟨.ok (.consolidated n), calls⟩) ∧
      Consolidation (fun attempt => a.adapter.generate (env.callToken attempt)
          (consolidationRequest (MemoryEngine.allMemories s.stores.memories ctx 512)))
        env.birth ctx (MemoryEngine.allMemories s.stores.memories ctx 512) s.stores.memories n memories calls :=
  ⟨_, _, _, rfl, consolidated a env ctx⟩

end App

def failingOnce : Adapter :=
  ⟨"failing-once", fun token req => if token = 0 then .error "down" else .ok ⟨" blue and green ", req.model, some "stop", ⟨1, 1, 2⟩⟩⟩

def twoColours : AppState ℚ :=
  letI := asciiBuiltins [] []
  (createApp sampleSettings failingOnce (fun _ => "cid")).machine.exec AppState.initial
    [⟨member "acme" "sales", envAt 0 "1", .writeMemory "blue" .longTerm (1 / 2)⟩,
     ⟨member "acme" "sales", envAt 1 "2", .writeMemory "green" .longTerm (1 / 2)⟩]

omit [PyFloat R] in
theorem consolidatesSample :
    letI := asciiBuiltins [] []
    ∃ n memories calls, (createApp sampleSettings failingOnce (fun _ => "cid")).step twoColours
        ⟨member "acme" "sales", envAt 2 "3", .consolidate⟩ =
        ({ twoColours with stores := { twoColours.stores with memories := memories } }, ⟨.ok (.consolidated n), calls⟩) ∧
      Consolidation (fun attempt => failingOnce.generate attempt
          (consolidationRequest (MemoryEngine.allMemories twoColours.stores.memories (member "acme" "sales") 512)))
        (envAt 2 "3").birth (member "acme" "sales") (MemoryEngine.allMemories twoColours.stores.memories (member "acme" "sales") 512)
        twoColours.stores.memories n memories calls :=
  letI := asciiBuiltins [] []
  App.consolidates (createApp sampleSettings failingOnce (fun _ => "cid")) (envAt 2 "3") (member "acme" "sales") twoColours

end ContextOS
