import ContextOS.App
import Mathlib.Data.Rat.Floor

/-! An interpretation to run the model with: floats are rationals, text is ASCII, and the
two hash functions are given by tables of the digests that a run asks for. The square root
is exact on squares of fractions and rounded down elsewhere, the power of a half is exact
on whole exponents and linear between them, and the logarithm is the first term of its
series. A digest that no table names is the text itself under a mark that no digest has.
All clocks of one operation stand still, and its fresh ids are told apart by their kind. -/
namespace ContextOS
open Lib (Dict)

/-! ### Floats -/

def newton (n : Nat) : Nat → Nat → Nat
  | 0, x => x
  | fuel + 1, x => let y := (x + n / x) / 2; if y < x then newton n fuel y else x

def ratSqrt (x : ℚ) : ℚ :=
  let root := fun n : Nat => if n = 0 then 0 else newton n 64 n
  (root x.num.toNat : ℚ) / root x.den

def ratHalfPow (x : ℚ) : ℚ := (2 - (x - ⌊x⌋)) / 2 ^ (⌊x⌋.toNat + 1)

def ratFixed (digits : Nat) (x : ℚ) : String :=
  let scaled := ⌊|x| * 10 ^ digits + 1 / 2⌋.toNat
  let text := (Nat.repr scaled).toList
  let padded := List.replicate (digits + 1 - text.length) '0' ++ text
  let whole := padded.take (padded.length - digits)
  let part := padded.drop (padded.length - digits)
  String.ofList ((if x < 0 then ['-'] else []) ++ whole ++ (if digits = 0 then [] else '.' :: part))

instance : PyFloat ℚ where
  sqrt := ratSqrt
  log x := 2 * (x - 1) / (x + 1)
  halfPow := ratHalfPow
  fixed := ratFixed

/-! ### Text -/

@[reducible] def asciiBuiltins (digests : List (String × String)) (hashes : List (String × Nat)) : Builtins where
  lower text := String.ofList (text.toList.map Char.toLower)
  foldCase := Char.toLower
  isWord c := c.isAlphanum || c == '_'
  isDigit := Char.isDigit
  sha256 text := (digests.lookup text).getD ("sha256:" ++ text)
  blake2b text := (hashes.lookup text).getD text.length

theorem asciiCollisionFree {digests : List (String × String)} {hashes : List (String × Nat)}
    (distinct : (digests.map Prod.snd).Nodup)
    (unmarked : ∀ d ∈ digests.map Prod.snd, ¬ "sha256:".toList <+: d.toList) :
    Function.Injective (asciiBuiltins digests hashes).sha256 := by
  intro x y same
  change (digests.lookup x).getD ("sha256:" ++ x) = (digests.lookup y).getD ("sha256:" ++ y) at same
  have listed : ∀ text d, digests.lookup text = some d → (text, d) ∈ digests := fun text d found => by
    obtain ⟨front, back, rfl, _⟩ := List.lookup_eq_some_iff.mp found
    exact List.mem_append_right _ List.mem_cons_self
  have marked : ∀ text d z, digests.lookup text = some d → d ≠ "sha256:" ++ z := fun text d z found same =>
    unmarked d (List.mem_map_of_mem (listed text d found)) ⟨z.toList, by rw [same, String.toList_append]⟩
  cases foundX : digests.lookup x with
  | none =>
    cases foundY : digests.lookup y with
    | none =>
      simp only [foundX, foundY, Option.getD_none] at same
      have chars := congrArg String.toList same
      simp only [String.toList_append] at chars
      exact String.toList_inj.mp (List.append_cancel_left chars)
    | some d => exact absurd (by simpa [foundX, foundY] using same.symm) (marked y d x foundY)
  | some d =>
    cases foundY : digests.lookup y with
    | none => exact absurd (by simpa [foundX, foundY] using same) (marked x d y foundX)
    | some d' =>
      have equal : d = d' := by simpa [foundX, foundY] using same
      subst equal
      exact (Prod.mk.inj (List.inj_on_of_nodup_map distinct (listed x d foundX) (listed y d foundY) rfl)).1

/-! ### Requests -/

def member (tenant ns : String) : SecurityContext :=
  ⟨tenant, ⟨"anonymous", tenant, ["user"], Dict.ofList [("namespace", ns)]⟩, ns, "request"⟩

def envAt (now : Time) (id : String) : Env where
  traceId := "trace-" ++ id
  commitId := "commit-" ++ id
  birth := ⟨"memory-" ++ id, now, now, now⟩
  spans := ⟨fun stage => stage.value ++ "-" ++ id, fun _ => now, fun _ => now⟩
  lookupAt := now
  retrieveAt := now
  capturedAt := now
  routeAt := now
  allowsAt _ := now
  failedAt _ := now
  storeAt := now
  committedAt := now
  callToken hop := hop

def ask (prompt : String) : ChatCall := ⟨prompt, none, 512, none⟩

def replying (reply : String) (finish : Option String) : Adapter :=
  ⟨"replying", fun _ req => .ok ⟨reply, req.model, finish, ⟨1, 1, 2⟩⟩⟩

-- of the fingerprints and prompts of the chats that ask for the colour
def colourDigests : List (String × String) :=
  [("", "e3b0c44298fc1c149afbf4c8996fb92427ae41e4649b934ca495991b7852b855"),
   ("acme\x1fsales\x1fdefault\x1fe3b0c44298fc\x1fv0",
    "c07c573b09eef36c53088229eb77c428926a6ae814ccf737ac1d1f5584d45f6b"),
   ("c07c573b09eef36c53088229eb77c428926a6ae814ccf737ac1d1f5584d45f6b\x1fcolour",
    "513695f349c3aede3e1586462b3bec328b0384a6b545996db342e706bdedffff"),
   ("acme\x1fsales\x1fopus\x1fe3b0c44298fc\x1fv0", "bf7d6ba4938ab0b6508ad704119f166144d98885378dc9d8b515ec40da2a379b"),
   ("bf7d6ba4938ab0b6508ad704119f166144d98885378dc9d8b515ec40da2a379b\x1fcolour",
    "165c9eae101c1b037bfddd9ae337b4460a16f0d19cdbc015c90700902595a22a"),
   ("globex\x1fsales\x1fdefault\x1fe3b0c44298fc\x1fv0",
    "bff4812ba9cc4015e013cd31380a557042c27195197ac418cae5994bbf8341a9"),
   ("bff4812ba9cc4015e013cd31380a557042c27195197ac418cae5994bbf8341a9\x1fcolour",
    "2ba415931b0c8961700e0299b8ac4a037d7324959335a289586014e6ccd9ae08"),
   ("user\x1fcolour", "99c547eb958a4ab21fc197c8a70d18600d6c4089b9494dd0921474dcf9e9dfe9"),
   ("system\x1fRelevant context:\n- blue\nuser\x1fcolour",
    "5968f7c17b7eef87a79d90417caef15928dfd74496596356487751789fc3d068")]

theorem colourCollisionFree : Function.Injective (asciiBuiltins colourDigests []).sha256 :=
  asciiCollisionFree (by decide +kernel) (by decide +kernel)

def sampleSettings : ContextOSSettings := ⟨"default", 6000⟩

def sampleCandidate (id content : String) (vectorScore : ℚ) : MemoryCandidate ℚ :=
  ⟨id, "acme", "sales", .semantic, content, some vectorScore, none, 1 / 61, 1, 1 / 2, some 1, none, 0, none⟩

def emptyStores : Stores ℚ := ⟨Dict.empty, Dict.empty, Dict.empty, Dict.empty, Dict.empty, none⟩

def sampleApp [Builtins] : App ℚ := createApp sampleSettings (replying "red" (some "stop")) (fun _ => "cid")

def opusBackend : RegistryEntry ℚ :=
  ⟨⟨"large", "opus", 0.02, 0.9, 900, "any", [], []⟩, replying "blue" (some "stop"), CircuitBreaker.default⟩

def routedStores : Stores ℚ := { emptyStores with backends := some (BackendRegistry.empty.register opusBackend) }

def routedPipeline [Builtins] : Pipeline ℚ :=
  { sampleApp.pipeline with memory := none, router := some ⟨⟨none⟩⟩ }

def chatResult? {R : Type} (response : Response R) : Option ChatResult :=
  match response.result with
  | .ok (.chat result) => some result
  | _ => none

theorem chatResultSome {R : Type} {response : Response R} {result : ChatResult} (given : chatResult? response = some result) :
    response.result = .ok (.chat result) := by
  unfold chatResult? at given
  split at given <;> simp_all

end ContextOS
