import ContextOS.Lib.JsonText
import ContextOS.ReplayFaithful

/-! The content address of a bundle: the digest of its canonical JSON. The keys are fixed
and sorted, so the text determines the payload, and the payload determines the prompt. A
bundle is stored under the address of what it holds, and no later operation changes that. -/
namespace ContextOS
open Lib (Json Machine)
open Lib.Json (isReal Writable sortKeys dumps)

variable {R : Type}

-- `float.__repr__` on finite floats: the literal tells one from another
structure FloatRepr (R : Type) where
  repr : R → String
  literal : ∀ x, isReal (repr x)
  exact : Function.Injective repr

def MemoryTier.value : MemoryTier → String
  | .working => "working"
  | .shortTerm => "short_term"
  | .longTerm => "long_term"
  | .episodic => "episodic"
  | .semantic => "semantic"

def optionalJson {α : Type} (json : α → Json) (value : Option α) : Json := value.elim .null json

def floatJson (f : FloatRepr R) (x : R) : Json := .real (f.repr x)

def rankJson (n : Nat) : Json := .int n

-- `MemoryCandidate.model_dump(mode="json")`
def candidateJson (f : FloatRepr R) (c : MemoryCandidate R) : Json :=
  .obj [("memory_id", .str c.memoryId), ("tenant_id", .str c.tenantId), ("namespace", .str c.namespaceId),
    ("tier", .str c.tier.value), ("content", .str c.content), ("vector_score", optionalJson (floatJson f) c.vectorScore),
    ("bm25_score", optionalJson (floatJson f) c.bm25Score), ("rrf_score", floatJson f c.rrfScore),
    ("recency_factor", floatJson f c.recencyFactor), ("importance", floatJson f c.importance),
    ("rank_in_dense", optionalJson rankJson c.rankInDense), ("rank_in_sparse", optionalJson rankJson c.rankInSparse),
    ("age_seconds", floatJson f c.ageSeconds), ("source_ref", optionalJson .str c.sourceRef)]

def weightsJson (f : FloatRepr R) (w : RankWeights R) : Json :=
  .obj [("vector", floatJson f w.vector), ("lexical", floatJson f w.lexical), ("recency", floatJson f w.recency),
    ("importance", floatJson f w.importance), ("source", floatJson f w.source)]

def budgetJson (b : TokenBudget) : Json :=
  .obj [("window_tokens", .int b.windowTokens), ("output_reserve", .int b.outputReserve),
    ("system_reserve", .int b.systemReserve), ("latest_user_reserve", .int b.latestUserReserve)]

def payloadJson (f : FloatRepr R) (p : BundlePayload R) : Json :=
  .obj [("model_id", .str p.modelId), ("mmr_lambda", floatJson f p.mmrLambda), ("weights", weightsJson f p.weights),
    ("budget", budgetJson p.budget), ("system_prompt", .str p.systemPrompt), ("latest_user_turn", .str p.latestUserTurn),
    ("candidates", .arr (p.candidates.map (candidateJson f)))]

-- `blake` is the hexadecimal BLAKE2b digest of 16 bytes
def contentAddress (f : FloatRepr R) (blake : String → String) (p : BundlePayload R) : String :=
  "b2:" ++ blake (dumps (sortKeys (payloadJson f p)))

/-! ### The text determines the payload -/

-- strings, numbers and null have no keys to sort
structure Faithful {α : Type} (json : α → Json) : Prop where
  unsorted : ∀ x, sortKeys (json x) = json x
  writable : ∀ x, Writable (json x)
  exact : Function.Injective json

theorem strFaithful : Faithful Json.str := ⟨fun _ => rfl, .str, fun _ _ same => Json.str.inj same⟩

theorem floatFaithful (f : FloatRepr R) : Faithful (floatJson f) :=
  ⟨fun _ => rfl, fun x => .real (f.literal x), fun _ _ same => f.exact (Json.real.inj same)⟩

theorem intFaithful : Faithful Json.int := ⟨fun _ => rfl, .int, fun _ _ same => Json.int.inj same⟩

theorem rankFaithful : Faithful rankJson :=
  ⟨fun _ => rfl, fun n => .int n, fun _ _ same => Int.ofNat.inj (Json.int.inj same)⟩

theorem tierFaithful : Faithful (fun t : MemoryTier => Json.str t.value) := by
  refine ⟨fun _ => rfl, fun t => .str _, fun t t' same => ?_⟩
  have value := Json.str.inj same
  cases t <;> cases t' <;> first | rfl | exact absurd value (by decide)

theorem optionalFaithful {α : Type} {json : α → Json} (faithful : Faithful json) (some : ∀ x, json x ≠ .null) :
    Faithful (optionalJson json) := by
  refine ⟨fun x => ?_, fun x => ?_, fun x y same => ?_⟩
  · cases x with
    | none => rfl
    | some x => exact faithful.unsorted x
  · cases x with
    | none => exact .null
    | some x => exact faithful.writable x
  · cases x with
    | none =>
      cases y with
      | none => rfl
      | some y => exact absurd same.symm (some y)
    | some x =>
      cases y with
      | none => exact absurd same (some x)
      | some y => exact congrArg _ (faithful.exact same)

theorem Faithful.same {α : Type} {json : α → Json} (faithful : Faithful json) {x y : α}
    (same : sortKeys (json x) = sortKeys (json y)) : x = y := by
  rw [faithful.unsorted, faithful.unsorted] at same
  exact faithful.exact same

theorem candidateSame (f : FloatRepr R) {c d : MemoryCandidate R}
    (same : sortKeys (candidateJson f c) = sortKeys (candidateJson f d)) : c = d := by
  have floats := optionalFaithful (floatFaithful f) (fun _ => by simp [floatJson])
  have ranks := optionalFaithful rankFaithful (fun _ => by simp [rankJson])
  have texts := optionalFaithful strFaithful (fun _ => by simp)
  have distinct : ["memory_id", "tenant_id", "namespace", "tier", "content", "vector_score", "bm25_score", "rrf_score",
    "recency_factor", "importance", "rank_in_dense", "rank_in_sparse", "age_seconds", "source_ref"].Nodup := by decide
  have values := Json.sortedValues same rfl distinct
  simp only [List.map_cons, List.map_nil, List.cons.injEq, and_true] at values
  obtain ⟨id, tenant, ns, tier, content, vector, bm25, rrf, recency, importance, dense, sparse, age, source⟩ := values
  cases c
  cases d
  rw [MemoryCandidate.mk.injEq]
  exact ⟨strFaithful.same id, strFaithful.same tenant, strFaithful.same ns, tierFaithful.same tier, strFaithful.same content,
    floats.same vector, floats.same bm25, (floatFaithful f).same rrf, (floatFaithful f).same recency,
    (floatFaithful f).same importance, ranks.same dense, ranks.same sparse, (floatFaithful f).same age, texts.same source⟩

theorem weightsSame (f : FloatRepr R) {w v : RankWeights R} (same : sortKeys (weightsJson f w) = sortKeys (weightsJson f v)) :
    w = v := by
  have distinct : ["vector", "lexical", "recency", "importance", "source"].Nodup := by decide
  have values := Json.sortedValues same rfl distinct
  simp only [List.map_cons, List.map_nil, List.cons.injEq, and_true] at values
  obtain ⟨vector, lexical, recency, importance, source⟩ := values
  have floats := floatFaithful f
  cases w
  cases v
  rw [RankWeights.mk.injEq]
  exact ⟨floats.same vector, floats.same lexical, floats.same recency, floats.same importance, floats.same source⟩

theorem budgetSame {b c : TokenBudget} (same : sortKeys (budgetJson b) = sortKeys (budgetJson c)) : b = c := by
  have distinct : ["window_tokens", "output_reserve", "system_reserve", "latest_user_reserve"].Nodup := by decide
  have values := Json.sortedValues same rfl distinct
  simp only [List.map_cons, List.map_nil, List.cons.injEq, and_true] at values
  obtain ⟨window, output, system, user⟩ := values
  cases b
  cases c
  rw [TokenBudget.mk.injEq]
  exact ⟨intFaithful.same window, intFaithful.same output, intFaithful.same system, intFaithful.same user⟩

theorem payloadSame (f : FloatRepr R) {p q : BundlePayload R} (same : sortKeys (payloadJson f p) = sortKeys (payloadJson f q)) :
    p = q := by
  have distinct : ["model_id", "mmr_lambda", "weights", "budget", "system_prompt", "latest_user_turn", "candidates"].Nodup := by
    decide
  have values := Json.sortedValues same rfl distinct
  simp only [List.map_cons, List.map_nil, List.cons.injEq, and_true] at values
  obtain ⟨model, lambda, weights, budget, system, user, candidates⟩ := values
  have listed : p.candidates = q.candidates := by
    simp only [Json.sortKeys, Json.sortItemsMap, List.map_map, Json.arr.injEq] at candidates
    exact List.map_injective_iff.mpr (fun _ _ same => candidateSame f same) candidates
  cases p
  cases q
  rw [BundlePayload.mk.injEq]
  exact ⟨strFaithful.same model, (floatFaithful f).same lambda, weightsSame f weights, budgetSame budget,
    strFaithful.same system, strFaithful.same user, listed⟩

theorem candidateWritable (f : FloatRepr R) (c : MemoryCandidate R) : Writable (candidateJson f c) := by
  have float := (floatFaithful f).writable
  have floats := (optionalFaithful (floatFaithful f) (fun _ => by simp [floatJson])).writable
  have ranks := (optionalFaithful rankFaithful (fun _ => by simp [rankJson])).writable
  have texts := (optionalFaithful strFaithful (fun _ => by simp)).writable
  refine .obj ?_
  simp only [List.forall_mem_cons, List.not_mem_nil, false_implies, implies_true, and_true]
  exact ⟨.str _, .str _, .str _, .str _, .str _, floats _, floats _, float _, float _, float _, ranks _, ranks _, float _, texts _⟩

theorem payloadWritable (f : FloatRepr R) (p : BundlePayload R) : Writable (payloadJson f p) := by
  have float := (floatFaithful f).writable
  have weights : Writable (weightsJson f p.weights) := by
    refine .obj ?_
    simp only [List.forall_mem_cons, List.not_mem_nil, false_implies, implies_true, and_true]
    exact ⟨float _, float _, float _, float _, float _⟩
  have budget : Writable (budgetJson p.budget) := by
    refine .obj ?_
    simp only [List.forall_mem_cons, List.not_mem_nil, false_implies, implies_true, and_true]
    exact ⟨.int _, .int _, .int _, .int _⟩
  have candidates : Writable (.arr (p.candidates.map (candidateJson f))) := by
    refine .arr fun item member => ?_
    obtain ⟨c, _, rfl⟩ := List.mem_map.mp member
    exact candidateWritable f c
  refine .obj ?_
  simp only [List.forall_mem_cons, List.not_mem_nil, false_implies, implies_true, and_true]
  exact ⟨.str _, float _, weights, budget, .str _, .str _, candidates⟩

theorem addressIff (f : FloatRepr R) {blake : String → String} (collisionFree : Function.Injective blake) {p q : BundlePayload R} :
    contentAddress f blake p = contentAddress f blake q ↔ p = q := by
  refine ⟨fun same => ?_, fun same => congrArg _ same⟩
  have digests : blake (dumps (sortKeys (payloadJson f p))) = blake (dumps (sortKeys (payloadJson f q))) := by
    have chars := congrArg String.toList same
    simp only [contentAddress, String.toList_append] at chars
    exact String.toList_inj.mp (List.append_cancel_left chars)
  exact payloadSame f (Json.dumpsInjective (Json.sortedWritable (payloadWritable f p))
    (Json.sortedWritable (payloadWritable f q)) (collisionFree digests))

/-! ### Stored bundles -/

section Stored
variable [PyFloat R] [Builtins]

/-- A bundle is filed under the digest of its payload, and shows the prompt that the payload assembles to. -/
structure SelfDescribing (d : ReplayDebugger R) (b : ContextBundle R) : Prop where
  address : b.bundleCid = d.digest b.payload
  prompt : ∃ out, d.reassemble b.payload = .ok out ∧ b.renderedMessages = Pipeline.bundleMessages out.messages ∧
    b.promptHash = renderPromptHash out.messages

theorem amendedSelfDescribing {d : ReplayDebugger R} {b old : ContextBundle R} (amends : InMemoryBundleStore.Amends b old)
    (valid : SelfDescribing d old) : SelfDescribing d b := by
  obtain ⟨output, rfl⟩ := amends
  exact ⟨valid.address, valid.prompt⟩

theorem frozenSelfDescribing {p : Pipeline R} {d : ReplayDebugger R} (wired : ReplayWired p d) {env ctx c candidates prepared b}
    (ok : p.assembleStage env ctx c candidates = .ok prepared) (bundled : prepared.bundle = some b) : SelfDescribing d b := by
  cases Pipeline.preparation ok with
  | passthrough => contradiction
  | @assembled a packing out wiredTo assembled spec decision =>
    cases Option.some.inj (wired.assembler.symm.trans wiredTo)
    obtain ⟨d', wired', rfl⟩ := Option.map_eq_some_iff.mp bundled
    cases Option.some.inj (wired.replay.symm.trans wired')
    refine ⟨rfl, out, ?_, rfl, rfl⟩
    simpa only [ReplayDebugger.reassemble, ReplayDebugger.newBundle, wired.tokenizer, Pipeline.sourcesOf] using assembled

namespace App
variable (a : App R)

def AllSelfDescribing (s : AppState R) : Prop :=
  ∀ tenant id b, (s.stores.bundles.part tenant).get id = some b → SelfDescribing a.replay b

theorem stepSelfDescribing (wired : ReplayWired a.pipeline a.replay) {s : AppState R} (r : Request R)
    (valid : a.AllSelfDescribing s) : a.AllSelfDescribing (a.step s r).1 := by
  intro tenant id b stored
  rcases a.stepBundles s r stored with ⟨old, there, amends⟩ | ⟨_, _, call, found, prepared, frozen, _, reached, bundled, amends⟩
  · exact amendedSelfDescribing amends (valid tenant id old there)
  · exact amendedSelfDescribing amends (frozenSelfDescribing wired reached.assembled bundled)

theorem runSelfDescribing (wired : ReplayWired a.pipeline a.replay) (requests : List (Request R)) :
    a.AllSelfDescribing (a.machine.exec AppState.initial requests) :=
  a.machine.invariant (P := a.AllSelfDescribing) (fun _ r valid => a.stepSelfDescribing wired r valid)
    (by intro tenant id b stored; simp [AppState.initial] at stored) requests

end App

theorem selfDescribingSame {d : ReplayDebugger R} {b b' : ContextBundle R} (valid : SelfDescribing d b)
    (valid' : SelfDescribing d b') (same : b.payload = b'.payload) :
    b.renderedMessages = b'.renderedMessages ∧ b.promptHash = b'.promptHash := by
  obtain ⟨out, assembled, rendered, hash⟩ := valid.prompt
  obtain ⟨out', assembled', rendered', hash'⟩ := valid'.prompt
  rw [same, assembled'] at assembled
  cases Except.ok.inj assembled
  exact ⟨rendered.trans rendered'.symm, hash.trans hash'.symm⟩

structure Addressed (b b' : ContextBundle R) : Prop where
  inputs : b.bundleCid = b'.bundleCid ↔ b.payload = b'.payload
  prompt : b.bundleCid = b'.bundleCid → b.renderedMessages = b'.renderedMessages ∧ b.promptHash = b'.promptHash

end Stored

/-! ### Two tenants that ask the same -/

-- a literal that the table has not: the fraction with `e` for its bar
def fractionLiteral (x : ℚ) : String := String.ofList (Json.writeInt x.num ++ 'e' :: Nat.toDigits 10 x.den)

theorem fractionWhole (x : ℚ) :
    Json.readWhole (fractionLiteral x).toList = some (Json.writeInt x.num, 'e' :: Nat.toDigits 10 x.den) := by
  rw [fractionLiteral, String.toList_ofList]
  exact Json.wholeAppend (by simp) (Json.readInteger x.num).1

theorem fractionReal (x : ℚ) : isReal (fractionLiteral x) := by
  have exponent : Json.readExponent ('e' :: Nat.toDigits 10 x.den) = ('e' :: Nat.toDigits 10 x.den, []) := by
    obtain ⟨c, rest, spelled, _⟩ := Json.toDigitsHead x.den
    have digit : c.isDigit = true := Nat.isDigit_of_mem_toDigits (b := 10) (n := x.den) (by decide) (by decide) (by simp [spelled])
    have unsigned : Json.readSign (Nat.toDigits 10 x.den) = ([], Nat.toDigits 10 x.den) := by
      rw [spelled]
      refine Json.unsigned (fun more same => ?_) (fun more same => ?_) <;>
        · obtain ⟨rfl, _⟩ := List.cons.inj same
          contradiction
    simp [Json.readExponent, unsigned, Json.toDigitsDigits]
  have read : Json.readNumber (fractionLiteral x).toList = some (.real (fractionLiteral x), []) := by
    have fraction : Json.readFraction ('e' :: Nat.toDigits 10 x.den) = ([], 'e' :: Nat.toDigits 10 x.den) := rfl
    simp only [Json.readNumber, fractionWhole, bind, Option.bind, pure]
    rw [fraction, exponent]
    simp [fractionLiteral]
  simp [isReal, read]

theorem fractionExact : Function.Injective fractionLiteral := by
  intro x y same
  have read := fractionWhole x
  rw [same, fractionWhole, Option.some.injEq, Prod.mk.injEq, List.cons.injEq] at read
  obtain ⟨num, _, den⟩ := read
  refine Rat.ext ?_ ?_
  · rw [← (Json.readInteger x.num).2, ← num, (Json.readInteger y.num).2]
  · rw [← Nat.ofDigitChars_ten_toDigits (n := x.den), ← den, Nat.ofDigitChars_ten_toDigits]

def decimals : List (ℚ × String) := [(7 / 10, "0.7"), (2 / 5, "0.4"), (1 / 5, "0.2"), (3 / 20, "0.15"), (1 / 10, "0.1")]

theorem decimalsUnmarked (x : ℚ) : fractionLiteral x ∉ decimals.map Prod.snd := by
  intro listed
  have bar : 'e' ∈ (fractionLiteral x).toList := by simp [fractionLiteral]
  simp only [decimals, List.map_cons, List.map_nil, List.mem_cons, List.not_mem_nil, or_false] at listed
  rcases listed with same | same | same | same | same <;> rw [same] at bar <;> revert bar <;> decide

theorem decimalListed {x : ℚ} {literal : String} (found : decimals.lookup x = some literal) : (x, literal) ∈ decimals := by
  obtain ⟨front, back, split, _⟩ := List.lookup_eq_some_iff.mp found
  rw [split]
  exact List.mem_append_right _ List.mem_cons_self

theorem decimalsDistinct {x y : ℚ} {literal : String} (left : (x, literal) ∈ decimals) (right : (y, literal) ∈ decimals) :
    x = y := by
  have distinct : (decimals.map Prod.snd).Nodup := by decide
  exact congrArg Prod.fst (List.inj_on_of_nodup_map distinct left right rfl)

def sampleRepr : FloatRepr ℚ where
  repr x := (decimals.lookup x).getD (fractionLiteral x)
  literal x := by
    cases found : decimals.lookup x with
    | none => exact fractionReal x
    | some literal =>
      have listed := decimalListed found
      simp only [decimals, List.mem_cons, Prod.mk.injEq, List.not_mem_nil, or_false] at listed
      rw [Option.getD_some]
      rcases listed with ⟨_, rfl⟩ | ⟨_, rfl⟩ | ⟨_, rfl⟩ | ⟨_, rfl⟩ | ⟨_, rfl⟩ <;> decide
  exact x y same := by
    cases left : decimals.lookup x with
    | none =>
      cases right : decimals.lookup y with
      | none => exact fractionExact (by simpa [left, right] using same)
      | some literal =>
        simp only [left, right, Option.getD_none, Option.getD_some] at same
        exact absurd (List.mem_map.mpr ⟨_, decimalListed right, same.symm⟩) (decimalsUnmarked x)
    | some literal =>
      cases right : decimals.lookup y with
      | none =>
        simp only [left, right, Option.getD_none, Option.getD_some] at same
        exact absurd (List.mem_map.mpr ⟨_, decimalListed left, same⟩) (decimalsUnmarked y)
      | some literal' =>
        simp only [left, right, Option.getD_some] at same
        exact decimalsDistinct (decimalListed left) (same ▸ decimalListed right)

def askColour (tenant id : String) : Request ℚ := ⟨member tenant "sales", envAt 0 id, .chat (ask "colour")⟩

def colourText : String :=
  "\x7b\"budget\":\x7b\"latest_user_reserve\":2,\"output_reserve\":512,\"system_reserve\":0,\"window_tokens\":6000\x7d," ++
  "\"candidates\":[],\"latest_user_turn\":\"colour\",\"mmr_lambda\":0.7,\"model_id\":\"default\",\"system_prompt\":\"\"," ++
  "\"weights\":\x7b\"importance\":0.15,\"lexical\":0.2,\"recency\":0.15,\"source\":0.1,\"vector\":0.4\x7d\x7d"

def sampleDigest [Builtins] : BundlePayload ℚ → String :=
  contentAddress sampleRepr (asciiBuiltins [(colourText, "8819a2620a49adb9adeeb1c605bff64c")] []).sha256

def colourApp [Builtins] : App ℚ := createApp sampleSettings (replying "red" (some "stop")) sampleDigest

end ContextOS
