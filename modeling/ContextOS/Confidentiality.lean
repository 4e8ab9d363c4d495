import ContextOS.Replayable

/-! Namespaces inside one tenant. Retrieval, and the prompts made from it, stay in the
namespace of the caller. Bundles and commits are filed under the tenant alone: what they
copied out of one namespace can be opened from every other one. Every copy is labelled
with the namespace it was filed from, and a run is confined exactly when what its answers
return of a bundle or a commit bears the label of the caller. -/
namespace ContextOS
open Lib (Machine)

variable {R : Type}

structure Excerpt where
  namespaceId : String
  content : String
  deriving DecidableEq, Repr

def MemoryCandidate.excerpt (c : MemoryCandidate R) : Excerpt := ⟨c.namespaceId, c.content⟩
def MemoryObject.excerpt (m : MemoryObject R) : Excerpt := ⟨m.namespaceId, m.content⟩
def ContextBundle.excerpts (b : ContextBundle R) : List Excerpt := b.payload.candidates.map (·.excerpt)
def Commit.excerpts (c : Commit R) : List Excerpt := c.snapshot.map (·.excerpt)

/-- The rows whose content stands in one of the texts. -/
def shownIn (texts : List String) (rows : List Excerpt) : List Excerpt :=
  rows.filter (fun e => texts.any (fun text => decide (e.content.toList <:+: text.toList)))

/-! ### What a run puts into its prompt -/

namespace Pipeline
variable [PyFloat R] [Builtins] (p : Pipeline R) (env : Env) (s : Stores R) (ctx : SecurityContext) (c : ChatCall)

def offered : List (MemoryCandidate R) :=
  match p.policy.check ctx (modelResource ctx) .route, p.lookup env s ctx c, p.retrieve env s ctx c with
  | .ok _, none, .ok found => (p.compressAll c.prompt found).1
  | _, _, _ => []

variable {p env s ctx c}

theorem reachedOffered {found prepared} (reached : Reached p env s ctx c found prepared) :
    p.offered env s ctx c = (p.compressAll c.prompt found).1 := by
  simp only [offered, reached.authorized, reached.miss, reached.retrieved]

omit [PyFloat R] in
theorem compressedLabel {prompt : String} {found : List (MemoryCandidate R)} {x : MemoryCandidate R}
    (member : x ∈ (p.compressAll prompt found).1) : ∃ y ∈ found, x.namespaceId = y.namespaceId := by
  unfold compressAll at member
  split at member
  · split at member
    · exact ⟨x, member, rfl⟩
    · simp only [List.map_map, List.mem_map, Function.comp_apply] at member
      obtain ⟨y, inside, rfl⟩ := member
      exact ⟨y, inside, by unfold compressOne; dsimp only; split <;> rfl⟩
  · exact ⟨x, member, rfl⟩

theorem offeredScope : ∀ x ∈ p.offered env s ctx c, x.namespaceId = ctx.namespaceId := by
  intro x member
  unfold offered at member
  split at member <;> try contradiction
  rename_i found _ _ retrieved
  obtain ⟨y, inside, label⟩ := compressedLabel member
  unfold Pipeline.retrieve at retrieved
  split at retrieved
  · cases Except.ok.inj retrieved
    contradiction
  · exact label.trans (MemoryEngine.retrievedScope retrieved y inside)

theorem promptFromOffered {call : AdapterCall} (member : call ∈ (p.run env s ctx c).calls) :
    ∃ placed, call.request.messages = render (sourcesOf c (p.offered env s ctx c)) placed ∧
      ∀ cb ∈ placed, cb.1 ∈ p.offered env s ctx c := by
  have ending := p.runEnding env s ctx c
  generalize p.run env s ctx c = out at ending member
  cases ending with
  | refused => contradiction
  | hit => contradiction
  | @dispatched found prepared reached spans =>
    rw [dispatchMessages member, reachedOffered reached]
    cases preparation reached.assembled with
    | passthrough => exact ⟨[], (renderNone _ _).symm, by simp⟩
    | assembled wired assembled spec =>
      refine ⟨_, spec.messages, fun cb placed => ?_⟩
      exact (packingOk spec.packing).given cb ((edgeLoadPerm _).subset placed)

end Pipeline

/-! ### What an answer returns -/

def openedBundles (s : AppState R) (r : Request R) : List (ContextBundle R) :=
  match r.op with
  | .replayTrace traceId _ => (s.stores.bundles.get r.ctx traceId).toList
  | .getBundle traceId => (s.stores.bundles.get r.ctx traceId).toList
  | .traceDiff a b =>
    match s.stores.bundles.get r.ctx a, s.stores.bundles.get r.ctx b with
    | some ba, some bb => [ba, bb]
    | _, _ => []
  | _ => []

def openedCommits (s : AppState R) (r : Request R) : List (Commit R) :=
  match r.op with
  | .getCommit cid => (s.versioning.get r.ctx cid).toList
  | _ => []

/-- A replay returns the completion, a trace-diff the two prompts: of the rows of their
bundles they return those that stand there. -/
def Reply.carried (opened : List (ContextBundle R)) : Reply R → List Excerpt
  | .candidates found => found.map (·.excerpt)
  | .bundle b => b.excerpts
  | .commit (some c) => c.excerpts
  | .replay result => opened.flatMap (fun b => shownIn result.recordedOutput.toList b.excerpts)
  | .contextDiff d => (opened.zip [d.promptA, d.promptB]).flatMap (fun side => shownIn [side.2] side.1.excerpts)
  | _ => []

def ContextBundle.exposed (op : Op R) (b : ContextBundle R) : List Excerpt :=
  match op with
  | .getBundle _ => b.excerpts
  | .replayTrace _ _ => shownIn b.recordedOutput.toList b.excerpts
  | .traceDiff _ _ => shownIn [renderBundle b] b.excerpts
  | _ => []

theorem exposedRows {op : Op R} {b : ContextBundle R} : ∀ e ∈ b.exposed op, e ∈ b.excerpts := by
  intro e member
  unfold ContextBundle.exposed shownIn at member
  split at member
  · exact member
  · exact List.mem_of_mem_filter member
  · exact List.mem_of_mem_filter member
  · contradiction

namespace App
variable [PyFloat R] [Builtins] (a : App R)

def carried (s : AppState R) (r : Request R) : List Excerpt :=
  match (a.step s r).2.result with
  | .ok reply => reply.carried (openedBundles s r)
  | .error _ => []

def RendersOwn (s : AppState R) (r : Request R) (call : ChatCall) (messages : List ChatMessage) : Prop :=
  ∃ placed : List (Ranked R),
    messages = render (Pipeline.sourcesOf call (a.pipeline.offered r.env s.stores r.ctx call)) placed ∧
    ∀ cb ∈ placed, cb.1 ∈ a.pipeline.offered r.env s.stores r.ctx call ∧ cb.1.namespaceId = r.ctx.namespaceId

structure ConfinedRead (s : AppState R) (r : Request R) : Prop where
  rows : ∀ e ∈ a.carried s r, e.namespaceId = r.ctx.namespaceId
  prompts : ∀ call, r.op = .chat call → ∀ sent ∈ (a.step s r).2.calls, a.RendersOwn s r call sent.request.messages
  -- the text of a difference is a fixed notice
  differences : ∀ result, (a.step s r).2.result = .ok (.replay result) →
    ∀ text ∈ result.diff, text = "live re-generation not compared (non-deterministic backend)"

def Confined (requests : List (Request R)) : Prop := a.machine.Along a.ConfinedRead AppState.initial requests

variable {a}

theorem carriedRetrieved {s : AppState R} {r : Request R} {query : String} {k : Int} (op : r.op = .retrieve query k) :
    ∀ e ∈ a.carried s r, e.namespaceId = r.ctx.namespaceId := by
  intro e member
  simp only [carried, step, op, quiet] at member
  split at member
  · rename_i reply replied
    obtain ⟨found, retrieved, rfl⟩ := Lib.mapOk.mp replied
    obtain ⟨x, inside, rfl⟩ := List.mem_map.mp member
    exact MemoryEngine.retrievedScope retrieved x inside
  · contradiction

theorem carriedOpened {s : AppState R} (reproduce : a.AllReproduce s) {r : Request R}
    (other : ∀ query k, r.op ≠ .retrieve query k) :
    a.carried s r = (openedBundles s r).flatMap (·.exposed r.op) ++ (openedCommits s r).flatMap (·.excerpts) := by
  unfold carried step openedBundles openedCommits ContextBundle.exposed
  cases op : r.op with
  | retrieve query k => exact absurd op (other query k)
  | getBundle traceId =>
    cases stored : s.stores.bundles.get r.ctx traceId <;> simp [quiet, stored, Reply.carried]
  | getCommit cid =>
    cases stored : s.versioning.get r.ctx cid <;> simp [quiet, stored, Reply.carried]
  | replayTrace traceId mode =>
    cases stored : s.stores.bundles.get r.ctx traceId with
    | none => simp [quiet, ReplayDebugger.replay, stored, Except.map, Reply.carried]
    | some b =>
      have replayed := replayReproduces stored (reproduce _ _ b stored) mode
      simp only [quiet, replayed, Except.map, Reply.carried, reproduced, stored, Option.toList_some, List.flatMap_cons,
        List.flatMap_nil, List.append_nil]
  | traceDiff x y =>
    cases first : s.stores.bundles.get r.ctx x with
    | none => simp [quiet, traceDiff, first, Reply.carried]
    | some ba =>
      cases second : s.stores.bundles.get r.ctx y with
      | none => simp [quiet, traceDiff, first, second, Reply.carried]
      | some bb => simp [quiet, traceDiff, first, second, Reply.carried, diffBundles]
  | chat call =>
    cases ran : (a.pipeline.run r.env s.stores r.ctx call).result <;> simp [ran, Except.map, Reply.carried]
  | writeMemory content tier importance =>
    cases written : MemoryEngine.write r.env.birth s.stores.memories r.ctx
        (⟨content, tier, importance, "chat", none, Lib.Dict.empty⟩ : WriteRequest R) <;>
      simp [quiet, written, Reply.carried]
  | memoryDiff x y => cases diff : s.versioning.diff r.ctx x y <;> simp [quiet, diff, Except.map, Reply.carried]
  | memoryRollback cid =>
    cases rolled : (s.versioning.rollback s.stores.memories r.ctx cid).2 <;>
      simp [quiet, rolled, Except.map, Reply.carried]
  | getTrace traceId => cases stored : s.stores.tracer.get r.ctx traceId <;> simp [quiet, stored, Reply.carried]
  | _ => simp [quiet, Reply.carried]

theorem chatPrompts {s : AppState R} {r : Request R} {call : ChatCall} (chat : r.op = .chat call) :
    ∀ sent ∈ (a.step s r).2.calls, a.RendersOwn s r call sent.request.messages := by
  intro sent member
  rw [chatReply chat] at member
  obtain ⟨placed, messages, offered⟩ := Pipeline.promptFromOffered member
  exact ⟨placed, messages, fun cb inside => ⟨offered cb inside, Pipeline.offeredScope cb.1 (offered cb inside)⟩⟩

theorem replayedOnly {s : AppState R} {r : Request R} {result : ReplayResult}
    (replied : (a.step s r).2.result = .ok (.replay result)) :
    ∃ traceId mode, a.replay.replay s.stores.bundles r.ctx traceId mode = .ok (some result) := by
  unfold step at replied
  cases op : r.op with
  | replayTrace traceId mode =>
    simp only [op, quiet] at replied
    obtain ⟨found, replayed, same⟩ := Lib.mapOk.mp replied
    cases found with
    | none => contradiction
    | some found =>
      cases same
      exact ⟨traceId, mode, replayed⟩
  | chat call =>
    simp only [op] at replied
    obtain ⟨_, _, other⟩ := Lib.mapOk.mp replied
    contradiction
  | writeMemory content tier importance =>
    simp only [op] at replied
    split at replied <;> simp [quiet] at replied
  | retrieve query k =>
    obtain ⟨_, _, other⟩ := Lib.mapOk.mp (show Except.map _ _ = _ by simpa only [op, quiet] using replied)
    contradiction
  | memoryDiff x y =>
    obtain ⟨_, _, other⟩ := Lib.mapOk.mp (show Except.map _ _ = _ by simpa only [op, quiet] using replied)
    contradiction
  | memoryRollback cid =>
    obtain ⟨_, _, other⟩ := Lib.mapOk.mp (show Except.map _ _ = _ by simpa only [op, quiet] using replied)
    contradiction
  | traceDiff x y =>
    simp only [op, quiet, traceDiff] at replied
    split at replied <;> simp at replied
  | getTrace traceId =>
    simp only [op, quiet] at replied
    split at replied <;> simp at replied
  | getBundle traceId =>
    simp only [op, quiet] at replied
    split at replied <;> simp at replied
  | _ => simp [op, quiet] at replied

theorem replayNotices {s : AppState R} (reproduce : a.AllReproduce s) {r : Request R} {result : ReplayResult}
    (replied : (a.step s r).2.result = .ok (.replay result)) :
    ∀ text ∈ result.diff, text = "live re-generation not compared (non-deterministic backend)" := by
  intro text given
  obtain ⟨traceId, mode, replayed⟩ := replayedOnly replied
  cases stored : s.stores.bundles.get r.ctx traceId with
  | none => simp [ReplayDebugger.replay, stored] at replayed
  | some b =>
    cases Option.some.inj (Except.ok.inj ((replayReproduces stored (reproduce _ _ b stored) mode).symm.trans replayed))
    simp only [reproduced, Option.ite_none_right_eq_some, Option.mem_def, Option.some.injEq] at given
    exact given.2.symm

end App

def committedUnder (past : List (Request R)) (tenant cid : String) : Option String :=
  (past.reverse.find? (App.commitsAs tenant cid)).map (·.ctx.namespaceId)

structure Labelled (past : List (Request R)) (s : AppState R) : Prop where
  bundles : ∀ tenant id b, (s.stores.bundles.part tenant).get id = some b →
    ∀ e ∈ b.excerpts, e.namespaceId = b.namespaceId
  commits : ∀ tenant cid c, (s.versioning.commits.part tenant).get cid = some c →
    c.cid = cid ∧ ∃ ns, committedUnder past tenant cid = some ns ∧ ∀ e ∈ c.excerpts, e.namespaceId = ns

section Runs
variable [PyFloat R] [Builtins] (a : App R)

theorem frozenLabels {p : Pipeline R} {env : Env} {s : Stores R} {ctx : SecurityContext} {c : ChatCall}
    {found : List (MemoryCandidate R)} {prepared : Prepared R} {b : ContextBundle R}
    (reached : Pipeline.Reached p env s ctx c found prepared) (bundled : prepared.bundle = some b) :
    b.namespaceId = ctx.namespaceId ∧ ∀ e ∈ b.excerpts, e.namespaceId = ctx.namespaceId := by
  have scope : ∀ x ∈ p.offered env s ctx c, x.namespaceId = ctx.namespaceId := Pipeline.offeredScope
  rw [Pipeline.reachedOffered reached] at scope
  cases Pipeline.preparation reached.assembled with
  | passthrough => contradiction
  | assembled =>
    obtain ⟨d, _, rfl⟩ := Option.map_eq_some_iff.mp bundled
    refine ⟨rfl, fun e member => ?_⟩
    obtain ⟨x, offered, rfl⟩ := List.mem_map.mp member
    exact scope x offered

theorem labelledStep {past : List (Request R)} {s : AppState R} {r : Request R} (valid : Labelled past s) :
    Labelled (past ++ [r]) (a.step s r).1 := by
  refine ⟨fun tenant id b stored => ?_, fun tenant cid c stored => ?_⟩
  · rcases a.stepBundles s r stored with ⟨old, there, output, rfl⟩ | ⟨_, _, call, found, prepared, frozen, _, reached, bundled, output, rfl⟩
    · exact valid.bundles tenant id old there
    · obtain ⟨own, labels⟩ := frozenLabels reached bundled
      exact fun e member => (labels e member).trans own.symm
  · have effect := a.stepCommits s r stored
    unfold committedUnder
    rw [List.reverse_append, List.reverse_singleton, List.singleton_append, List.find?_cons]
    split at effect
    · rename_i commits
      obtain ⟨same, snapshot⟩ := effect
      refine ⟨same, r.ctx.namespaceId, by simp [commits], fun e member => ?_⟩
      obtain ⟨m, inside, rfl⟩ := List.mem_map.mp member
      rw [snapshot] at inside
      exact (InMemoryStore.listMember inside).2
    · rename_i other
      simpa [committedUnder, other] using valid.commits tenant cid c effect

theorem labelledRun (requests : List (Request R)) :
    Labelled requests (a.machine.exec AppState.initial requests) := by
  have run := a.machine.historyInvariant (P := fun past s => Labelled (past.map Prod.fst) s)
    (s := AppState.initial) ⟨by simp [AppState.initial], by simp [AppState.initial, MemoryVersioning.empty]⟩
    (fun past s r valid => by rw [List.map_append]; exact labelledStep a valid) requests
  simpa [Machine.repliesInputs] using run

/-! ### Confinement -/

structure OwnSources (past : List (Request R)) (s : AppState R) (r : Request R) : Prop where
  bundles : ∀ b ∈ openedBundles s r, b.namespaceId = r.ctx.namespaceId ∨ b.exposed r.op = []
  commits : ∀ c ∈ openedCommits s r,
    committedUnder past r.ctx.tenantId c.cid = some r.ctx.namespaceId ∨ c.snapshot = []

omit [PyFloat R] [Builtins] in
theorem openedStored {s : AppState R} {r : Request R} :
    (∀ b ∈ openedBundles s r, ∃ id, (s.stores.bundles.part r.ctx.tenantId).get id = some b) ∧
    (∀ c ∈ openedCommits s r, ∃ cid, (s.versioning.commits.part r.ctx.tenantId).get cid = some c) := by
  constructor
  · intro b member
    unfold openedBundles at member
    split at member
    · exact ⟨_, Option.mem_toList.mp member⟩
    · exact ⟨_, Option.mem_toList.mp member⟩
    · split at member
      · rename_i ba bb first second
        rcases List.mem_pair.mp member with rfl | rfl
        · exact ⟨_, first⟩
        · exact ⟨_, second⟩
      · contradiction
    · contradiction
  · intro c member
    unfold openedCommits at member
    split at member
    · exact ⟨_, Option.mem_toList.mp member⟩
    · contradiction

omit [PyFloat R] [Builtins] in
theorem uniformLabels {excerpts : List Excerpt} {own ns : String} (labels : ∀ e ∈ excerpts, e.namespaceId = own) :
    (∀ e ∈ excerpts, e.namespaceId = ns) ↔ own = ns ∨ excerpts = [] := by
  constructor
  · intro all
    cases excerpts with
    | nil => exact .inr rfl
    | cons e rest => exact .inl ((labels e List.mem_cons_self).symm.trans (all e List.mem_cons_self))
  · intro given
    rcases given with rfl | rfl
    · exact labels
    · simp

omit [PyFloat R] [Builtins] in
theorem ownSourcesIff {past : List (Request R)} {s : AppState R} (valid : Labelled past s) (r : Request R) :
    (∀ e ∈ (openedBundles s r).flatMap (·.exposed r.op) ++ (openedCommits s r).flatMap (·.excerpts),
      e.namespaceId = r.ctx.namespaceId) ↔ OwnSources past s r := by
  obtain ⟨bundlesStored, commitsStored⟩ := openedStored (s := s) (r := r)
  have bundleIff : ∀ b ∈ openedBundles s r, (∀ e ∈ b.exposed r.op, e.namespaceId = r.ctx.namespaceId) ↔
      b.namespaceId = r.ctx.namespaceId ∨ b.exposed r.op = [] := by
    intro b opened
    obtain ⟨id, stored⟩ := bundlesStored b opened
    exact uniformLabels fun e member => valid.bundles _ _ _ stored e (exposedRows e member)
  have commitIff : ∀ c ∈ openedCommits s r, (∀ e ∈ c.excerpts, e.namespaceId = r.ctx.namespaceId) ↔
      committedUnder past r.ctx.tenantId c.cid = some r.ctx.namespaceId ∨ c.snapshot = [] := by
    intro c opened
    obtain ⟨cid, stored⟩ := commitsStored c opened
    obtain ⟨rfl, ns, under, labels⟩ := valid.commits _ _ _ stored
    rw [uniformLabels labels, under, Option.some.injEq, Commit.excerpts, List.map_eq_nil_iff]
  rw [List.forall_mem_append]
  constructor
  · intro all
    constructor
    · intro b opened
      exact (bundleIff b opened).mp fun e member => all.1 e (List.mem_flatMap.mpr ⟨b, opened, member⟩)
    · intro c opened
      exact (commitIff c opened).mp fun e member => all.2 e (List.mem_flatMap.mpr ⟨c, opened, member⟩)
  · intro own
    constructor
    · intro e member
      obtain ⟨b, opened, inside⟩ := List.mem_flatMap.mp member
      exact (bundleIff b opened).mpr (own.bundles b opened) e inside
    · intro e member
      obtain ⟨c, opened, inside⟩ := List.mem_flatMap.mp member
      exact (commitIff c opened).mpr (own.commits c opened) e inside

variable {a}

theorem confinedReadIff {past : List (Request R)} {s : AppState R} (valid : Labelled past s) (reproduce : a.AllReproduce s)
    (r : Request R) : a.ConfinedRead s r ↔ OwnSources past s r := by
  by_cases retrieves : ∃ query k, r.op = .retrieve query k
  · obtain ⟨query, k, op⟩ := retrieves
    refine iff_of_true ⟨App.carriedRetrieved op, ?_, fun _ replied => App.replayNotices reproduce replied⟩ ⟨?_, ?_⟩
    · intro call chat
      exact absurd (op.symm.trans chat) (by simp)
    · simp [openedBundles, op]
    · simp [openedCommits, op]
  · push Not at retrieves
    rw [← ownSourcesIff valid, ← App.carriedOpened reproduce retrieves]
    exact ⟨fun confined => confined.rows, fun rows =>
      ⟨rows, fun _ chat => App.chatPrompts chat, fun _ replied => App.replayNotices reproduce replied⟩⟩

end Runs

theorem confinedIff [PyFloat R] [Builtins] (settings : ContextOSSettings) (adapter : Adapter)
    (digest : BundlePayload R → String) (requests : List (Request R)) :
    (createApp settings adapter digest).Confined requests ↔
      ∀ front r back, requests = front ++ r :: back →
        OwnSources front ((createApp settings adapter digest).machine.exec AppState.initial front) r := by
  unfold App.Confined Machine.Along
  refine forall_congr' fun front => forall_congr' fun r => forall_congr' fun back => ?_
  refine imp_congr_right fun _ => confinedReadIff (labelledRun _ front) ?_ r
  exact App.reachableReproduce _ (createAppWired settings adapter digest) front

def foreignBundle : List (Request ℚ) :=
  [⟨member "acme" "sales", envAt 0 "1", .writeMemory "blue" .longTerm (1 / 2)⟩,
   ⟨member "acme" "sales", envAt 0 "2", .chat (ask "colour")⟩,
   ⟨member "acme" "legal", envAt 0 "3", .getBundle "trace-2"⟩]

theorem bundleOpenAcrossNamespaces :
    letI := asciiBuiltins [] []
    ¬ (createApp sampleSettings (replying "blue" (some "stop")) (fun _ => "cid") : App ℚ).Confined foreignBundle := by
  let _ := asciiBuiltins [] []
  intro confined
  have read := confined (foreignBundle.take 2) ⟨member "acme" "legal", envAt 0 "3", .getBundle "trace-2"⟩ [] rfl
  exact absurd (read.rows ⟨"sales", "blue"⟩ (by decide +kernel)) (by decide)

end ContextOS
