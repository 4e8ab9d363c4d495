import ContextOS.Executable
import ContextOS.Walk

/-! The model on a bundle and the model that answered. The bundle is frozen before
routing, under the model that was asked for, and what is attached to it later is only the
output: the record is right exactly when the backend that replied serves that model. -/
namespace ContextOS
open Lib (toOptionOk)

variable {R : Type}

theorem Pipeline.preparedModel [PyFloat R] [Builtins] {p : Pipeline R} {env : Env} {ctx : SecurityContext} {c : ChatCall}
    {candidates : List (MemoryCandidate R)} {prepared : Prepared R} {b : ContextBundle R}
    (ok : p.assembleStage env ctx c candidates = .ok prepared) (bundled : prepared.bundle = some b) :
    b.payload.modelId = p.chosenModel c := by
  cases preparation ok with
  | passthrough => contradiction
  | assembled =>
    obtain ⟨d, _, rfl⟩ := Option.map_eq_some_iff.mp bundled
    rfl

structure CapturedRun [PyFloat R] [Builtins] (p : Pipeline R) extends AnsweredRun p where
  frozen : ContextBundle R
  captured : prepared.bundle = some frozen

namespace CapturedRun
variable [PyFloat R] [Builtins] {p : Pipeline R} (x : CapturedRun p)

def stored : Option (ContextBundle R) := x.out.stores.bundles.get x.ctx x.env.traceId

def sent : List AdapterCall := x.out.calls

def Recorded : Prop :=
  ∃ b answering, x.stored = some b ∧ x.sent.getLast? = some answering ∧ b.payload.modelId = answering.request.model

def DiffExact (y : CapturedRun p) : Prop :=
  ∃ a b first second, x.stored = some a ∧ y.stored = some b ∧ x.sent.getLast? = some first ∧
    y.sent.getLast? = some second ∧ (diffBundles a b).modelChanged =
      if first.request.model ≠ second.request.model then some (first.request.model, second.request.model) else none

theorem lastCall : x.sent.getLast? = some ⟨⟨x.model, x.prepared.messages, x.call.maxTokens⟩, .ok x.resp⟩ := by
  obtain ⟨backends, spans, failures, run⟩ := Pipeline.answeredRun x.answered
  simp [sent, AnsweredRun.out, run, Pipeline.finish]

theorem frozenModel : x.frozen.payload.modelId = p.chosenModel x.call :=
  Pipeline.preparedModel x.answered.reached.assembled x.captured

theorem storedAmends : ∃ b, x.stored = some b ∧ InMemoryBundleStore.Amends b x.frozen := by
  obtain ⟨backends, spans, failures, run⟩ := Pipeline.answeredRun x.answered
  have there : (Pipeline.captured x.stores x.ctx x.prepared).bundles.get x.ctx x.env.traceId = some x.frozen := by
    simp only [Pipeline.captured, x.captured, ← Pipeline.preparedTrace x.answered.reached.assembled x.captured]
    exact Lib.Parts.getPutSelf _ _ _ _
  simp only [stored, AnsweredRun.out, run, Pipeline.finish, Pipeline.committed, Pipeline.writeback]
  split
  · exact ⟨x.frozen, there, .refl _⟩
  · dsimp only
    split
    · exact ⟨x.frozen, there, .refl _⟩
    · exact ⟨_, InMemoryBundleStore.attachedSelf there _, _, rfl⟩

theorem storedModel : ∃ b, x.stored = some b ∧ b.payload.modelId = p.chosenModel x.call := by
  obtain ⟨b, stored, output, rfl⟩ := x.storedAmends
  exact ⟨_, stored, x.frozenModel⟩

theorem recordedIff : x.Recorded ↔ x.model = p.chosenModel x.call := by
  obtain ⟨b, stored, asked⟩ := x.storedModel
  constructor
  · intro recorded
    obtain ⟨b', answering, stored', last, same⟩ := recorded
    cases Option.some.inj (stored.symm.trans stored')
    cases Option.some.inj (x.lastCall.symm.trans last)
    exact same.symm.trans asked
  · intro same
    exact ⟨b, _, stored, x.lastCall, asked.trans same.symm⟩

theorem recordedModelIff : (x.Recorded ↔ x.KeepsModel) ∧
    ∀ y : CapturedRun p, x.KeepsModel → y.KeepsModel → x.DiffExact y := by
  refine ⟨x.recordedIff.trans x.keepsIff.symm, fun y same other => ?_⟩
  obtain ⟨a, stored, asked⟩ := x.storedModel
  obtain ⟨b, stored', asked'⟩ := y.storedModel
  refine ⟨a, b, _, _, stored, stored', x.lastCall, y.lastCall, ?_⟩
  simp only [diffBundles, asked, asked', x.keepsIff.mp same, y.keepsIff.mp other]

end CapturedRun

/-! ### A run that is routed elsewhere -/

theorem askedModelRecorded :
    letI := asciiBuiltins [] []
    ∃ x : CapturedRun routedPipeline, ¬ x.Recorded := by
  let _ := asciiBuiltins [] []
  let p := routedPipeline
  let env := envAt 0 "1"
  let ctx := member "acme" "sales"
  have routed : (p.assembleStage env ctx (ask "colour") []).toOption.any (fun prepared => prepared.bundle.isSome &&
      (p.answering env routedStores ctx (ask "colour") prepared).toOption.any (fun answer => answer.2.2 = "opus")) := by
    decide +kernel
  obtain ⟨prepared, assembled, run⟩ := Option.any_eq_true _ _ |>.mp routed
  obtain ⟨bundled, run⟩ := Bool.and_eq_true_iff.mp run
  obtain ⟨frozen, captured⟩ := Option.isSome_iff_exists.mp bundled
  obtain ⟨⟨resp, used, model⟩, answer, opus⟩ := Option.any_eq_true _ _ |>.mp run
  let x : AnsweredRun p := ⟨env, routedStores, ctx, ask "colour", [], prepared, model, resp,
    ⟨rfl, by decide +kernel, rfl, toOptionOk.mp assembled⟩, used, toOptionOk.mp answer⟩
  refine ⟨⟨x, frozen, captured⟩, fun recorded => ?_⟩
  have same : model = "default" := (CapturedRun.recordedIff _).mp recorded
  have asked : model = "opus" := of_decide_eq_true opus
  exact absurd (same.symm.trans asked) (by decide)

end ContextOS
