import JwtRevoker.AdjustCalls
import JwtRevoker.ProxyHistory
import JwtRevoker.RoleChange

/-!
# Handing the log of a slave over to its proxy

Node A, ordered to become a slave, reads its log and sends each live record to node
B as a `revoke_jwt` frame; B, ordered to become a proxy, assigns its role, stores
the parameters, loads its own log and swaps the filters. The orders of the master,
the frames and B's server are not synchronised with one another.
-/
namespace JwtRevoker.Handover

open EngineM Engine JsonText StepRuns NodeMessageSender

/-- How far A is with its order: the lines it has still to read. The adjustment of its
own filters follows and touches neither the connection nor B. -/
inductive Replay
  | waiting
  | sending (lines : List Str)
  | done

/-- How far B is with its order. -/
inductive Order
  | waiting
  | proxy
  | adjusting
  | done

/-- `proxy` is B's engine, log and adjustment, `slaveLog` the log of A; `visited`
records the lines A has found, `frames` are on the connection. -/
structure State where
  clock : ℤ
  nodeRole : NodeRole
  order : Order := .waiting
  proxy : AdjustCalls.State
  slaveLog : LogDir
  replay : Replay := .waiting
  visited : List Str := []
  frames : List Str := []

def State.engine (s : State) : Engine := s.proxy.world.engine

inductive Action
  | tick (seconds : ℕ)
  | takeRole
  | store
  | load
  | swap
  | connect
  | sendLine
  | finishReplay
  | handle
  | rotate
  deriving DecidableEq

section Step

variable (J : JsonLib) (hash : HashCalls) (utcOffset : ℤ)
  (proxyQuery : Str → ℤ → Except Fault Bool) (p : Params)

def step (s : State) : Action → Option State
  | .tick seconds => some { s with clock := s.clock + seconds }
  | .takeRole =>
      match s.order with
      | .waiting => some { s with nodeRole := .proxyNode, order := .proxy }
      | _ => none
  | .store =>
      match s.order with
      | .proxy => (AdjustCalls.step hash utcOffset s.proxy (.store p)).map fun proxy =>
          { s with proxy := proxy, order := .adjusting }
      | _ => none
  | .load =>
      match s.order with
      | .adjusting => (AdjustCalls.step hash utcOffset s.proxy (.load s.clock)).map fun proxy =>
          { s with proxy := proxy }
      | _ => none
  | .swap =>
      match s.order with
      | .adjusting => (AdjustCalls.step hash utcOffset s.proxy .swap).map fun proxy =>
          { s with proxy := proxy, order := .done }
      | _ => none
  | .connect =>
      match s.replay with
      | .waiting =>
          let lines := linesToSend utcOffset s.clock s.slaveLog
          some { s with replay := .sending lines, visited := lines }
      | _ => none
  | .sendLine =>
      match s.replay with
      | .sending (line :: lines) =>
          match frameOfLine J s.clock line with
          | .ok frame => some { s with
              replay := .sending lines
              frames := s.frames ++ frame.toList }
          | .error _ => none
      | _ => none
  | .finishReplay =>
      match s.replay with
      | .sending [] => some { s with replay := .done }
      | _ => none
  | .handle =>
      match s.frames with
      | frame :: frames =>
          match Server.processTask J hash s.clock s.nodeRole proxyQuery s.engine frame with
          | .ok (e, _) => some { s with
              frames := frames
              proxy := { s.proxy with world := { s.proxy.world with engine := e } } }
          | .error _ => none
      | [] => none
  | .rotate => (AdjustCalls.step hash utcOffset s.proxy (.call (.rotate s.clock))).map fun proxy =>
      { s with proxy := proxy }

/-- What the steps do when they are taken. -/
inductive Steps (s : State) : Action → State → Prop
  | tick {seconds : ℕ} : Steps s (.tick seconds) { s with clock := s.clock + seconds }
  | takeRole : s.order = .waiting →
      Steps s .takeRole { s with nodeRole := .proxyNode, order := .proxy }
  | store {proxy : AdjustCalls.State} : s.order = .proxy →
      AdjustCalls.Steps hash utcOffset s.proxy (.store p) proxy →
      Steps s .store { s with proxy := proxy, order := .adjusting }
  | load {proxy : AdjustCalls.State} : s.order = .adjusting →
      AdjustCalls.Steps hash utcOffset s.proxy (.load s.clock) proxy →
      Steps s .load { s with proxy := proxy }
  | swap {proxy : AdjustCalls.State} : s.order = .adjusting →
      AdjustCalls.Steps hash utcOffset s.proxy .swap proxy →
      Steps s .swap { s with proxy := proxy, order := .done }
  | connect : s.replay = .waiting →
      Steps s .connect { s with
        replay := .sending (linesToSend utcOffset s.clock s.slaveLog)
        visited := linesToSend utcOffset s.clock s.slaveLog }
  | sendLine {line : Str} {lines : List Str} {frame : Option Str} :
      s.replay = .sending (line :: lines) → frameOfLine J s.clock line = .ok frame →
      Steps s .sendLine { s with replay := .sending lines, frames := s.frames ++ frame.toList }
  | finishReplay : s.replay = .sending [] → Steps s .finishReplay { s with replay := .done }
  | handle {frame : Str} {frames : List Str} {e : Engine} {resp : Option Str} :
      s.frames = frame :: frames →
      Server.processTask J hash s.clock s.nodeRole proxyQuery s.engine frame = .ok (e, resp) →
      Steps s .handle { s with
        frames := frames
        proxy := { s.proxy with world := { s.proxy.world with engine := e } } }
  | rotate {proxy : AdjustCalls.State} :
      AdjustCalls.Steps hash utcOffset s.proxy (.call (.rotate s.clock)) proxy →
      Steps s .rotate { s with proxy := proxy }

end Step

/-- Both nodes before their orders. -/
def start (clock : ℤ) (nodeRole : NodeRole) (world : World) (slaveLog : LogDir) : State where
  clock := clock
  nodeRole := nodeRole
  proxy := ⟨world, .idle⟩
  slaveLog := slaveLog

def rotationsIn (actions : List Action) : ℕ := actions.count .rotate

variable {J : JsonLib} {hash : HashCalls} {utcOffset now expTime : ℤ}
  {proxyQuery : Str → ℤ → Except Fault Bool} {p : Params} {s s' s₁ : State} {a : Action}
  {actions later : List Action} {e e' : Engine} {token line frame : Str}

lemma steps_of_step (h : step J hash utcOffset proxyQuery p s a = some s') :
    Steps J hash utcOffset proxyQuery p s a s' := by
  cases a with
  | tick seconds =>
    cases h
    exact .tick
  | takeRole =>
    simp only [step] at h
    split at h
    · cases h
      exact .takeRole ‹_›
    · cases h
  | store =>
    simp only [step] at h
    split at h
    · obtain ⟨proxy, hs, rfl⟩ := Option.map_eq_some_iff.mp h
      exact .store ‹_› (AdjustCalls.steps_of_step hs)
    · cases h
  | load =>
    simp only [step] at h
    split at h
    · obtain ⟨proxy, hs, rfl⟩ := Option.map_eq_some_iff.mp h
      exact .load ‹_› (AdjustCalls.steps_of_step hs)
    · cases h
  | swap =>
    simp only [step] at h
    split at h
    · obtain ⟨proxy, hs, rfl⟩ := Option.map_eq_some_iff.mp h
      exact .swap ‹_› (AdjustCalls.steps_of_step hs)
    · cases h
  | connect =>
    simp only [step] at h
    split at h
    · cases h
      exact .connect ‹_›
    · cases h
  | sendLine =>
    simp only [step] at h
    split at h
    · split at h
      · cases h
        exact .sendLine ‹_› ‹_›
      · cases h
    · cases h
  | finishReplay =>
    simp only [step] at h
    split at h
    · cases h
      exact .finishReplay ‹_›
    · cases h
  | handle =>
    simp only [step] at h
    split at h
    · split at h
      · cases h
        exact .handle ‹_› ‹_›
      · cases h
    · cases h
  | rotate =>
    obtain ⟨proxy, hs, rfl⟩ := Option.map_eq_some_iff.mp h
    exact .rotate (AdjustCalls.steps_of_step hs)

/-- A frame makes at most one revocation of the engine. -/
lemma processTask_run {nodeRole : NodeRole} {resp : Option Str}
    (h : Server.processTask J hash now nodeRole proxyQuery e frame = .ok (e', resp)) :
    ∃ ops, e.run hash ops = .ok e' ∧ rotations ops = 0 := by
  rcases Server.processTask_engine h with rfl | ⟨data, hr⟩
  · exact ⟨[], rfl, rfl⟩
  · exact ⟨[.revokeJwt (Scheduler.revokeRequest data).1 (Scheduler.revokeRequest data).2 now],
      run_singleton hr, rfl⟩

/-- Outside of an adjustment a step makes some calls on B's engine, among them the
rotation if it is one. -/
structure Calls (hash : HashCalls) (s : State) (a : Action) (s' : State) : Prop where
  phase : s'.proxy.phase = s.proxy.phase
  order : s'.order = s.order ∧ s'.nodeRole = s.nodeRole ∨
    s.order = .waiting ∧ s'.order = .proxy ∧ s'.nodeRole = .proxyNode
  ops : ∃ ops, s.engine.run hash ops = .ok s'.engine ∧ rotations ops = rotationsIn [a]

lemma step_calls (h : step J hash utcOffset proxyQuery p s a = some s') (hstore : a ≠ .store)
    (hload : a ≠ .load) (hswap : a ≠ .swap) : Calls hash s a s' := by
  cases steps_of_step h with
  | store => exact absurd rfl hstore
  | load => exact absurd rfl hload
  | swap => exact absurd rfl hswap
  | tick | connect | sendLine | finishReplay => exact ⟨rfl, .inl ⟨rfl, rfl⟩, [], rfl, rfl⟩
  | takeRole hwaiting => exact ⟨rfl, .inr ⟨hwaiting, rfl, rfl⟩, [], rfl, rfl⟩
  | handle _ hp => exact ⟨rfl, .inl ⟨rfl, rfl⟩, processTask_run hp⟩
  | rotate hr =>
    cases hr with
    | call he => exact ⟨rfl, .inl ⟨rfl, rfl⟩, [.rotate s.clock], run_singleton he, rfl⟩

/-- A window built for `p`, with everything that happened to it since. -/
structure Window (hash : HashCalls) (p : Params) (e : Engine) : Prop where
  hasParams : e.HasParams p
  interval_pos : 0 < p.rotationInterval.toNat
  hasHistory : 0 < e.filtersNum → ∃ blank history, e.HasHistory hash blank history

lemma loadNew_window {w w' : World} {filters : List BaseBloomFilter}
    (hparams : w.engine.HasParams p) (hR : 0 < p.rotationInterval.toNat)
    (h : Returns (AdjustCalls.loadNew hash utcOffset now) w filters w') :
    w'.engine = w.engine ∧ Window hash p { w.engine with filters := filters } := by
  have hpos : 0 < w.engine.rotationInterval := by
    rw [hparams.rotationInterval]
    exact hR
  have hnum : w.engine.filtersNum = w.engine.maxJwtLifeTime / w.engine.rotationInterval := by
    rw [hparams.filtersNum, hparams.maxJwtLifeTime, hparams.rotationInterval]
  obtain ⟨he, -, fresh, ops, hfresh, hr⟩ := AdjustCalls.loadNew_run hpos hnum h
  refine ⟨he, hparams.withFilters filters, hR, ?_⟩
  intro hpos
  obtain ⟨blank, hist⟩ := @FreshFilters.hasHistory hash _ _ hfresh hpos
  obtain ⟨_, -, hist'⟩ := hist.run hr
  exact ⟨blank, _, hist'⟩

/-- What B's order has brought about so far. -/
structure Inv (hash : HashCalls) (p : Params) (s : State) : Prop where
  role : s.order ≠ .waiting → s.nodeRole = .proxyNode
  stored : s.order = .adjusting → s.engine.HasParams p ∧ 0 < p.rotationInterval.toNat
  loaded : s.order = .adjusting → ∀ filters, s.proxy.phase = .loaded filters →
    Window hash p { s.engine with filters := filters }
  done : s.order = .done → Window hash p s.engine

lemma Window.run {ops : List Op} (hw : Window hash p e) (h : e.run hash ops = .ok e') :
    Window hash p e' := by
  have hframe := run_frame h
  refine ⟨?_, hw.interval_pos, ?_⟩
  · rw [hframe]
    exact hw.hasParams.withFilters _
  · intro hpos
    obtain ⟨blank, history, hist⟩ := hw.hasHistory (by rw [hframe] at hpos; exact hpos)
    obtain ⟨_, -, hist'⟩ := hist.run h
    exact ⟨blank, _, hist'⟩

lemma Inv.calls (hi : Inv hash p s) (hc : Calls hash s a s') : Inv hash p s' := by
  obtain ⟨ops, hr, -⟩ := hc.ops
  have hframe := run_frame hr
  rcases hc.order with ⟨horder, hrole⟩ | ⟨-, horder, hrole⟩
  · refine ⟨fun h => hrole.trans (hi.role (horder ▸ h)), fun h => ?_, fun h filters hp => ?_,
      fun h => (hi.done (horder ▸ h)).run hr⟩
    · rw [hframe]
      exact ⟨(hi.stored (horder ▸ h)).1.withFilters _,
        (hi.stored (horder ▸ h)).2⟩
    · rw [hframe]
      exact hi.loaded (horder ▸ h) filters (hc.phase ▸ hp)
  · refine ⟨fun _ => hrole, fun h => ?_, fun h => ?_, fun h => ?_⟩ <;>
      exact absurd (horder.symm.trans h) Order.noConfusion

lemma Inv.step (hi : Inv hash p s) (h : step J hash utcOffset proxyQuery p s a = some s') :
    Inv hash p s' := by
  cases a with
  | store =>
    cases steps_of_step h with
    | store horder hs =>
      cases hs with
      | store _ hpos =>
        exact ⟨fun _ => hi.role (by rw [horder]; exact Order.noConfusion),
          fun _ => ⟨⟨rfl, rfl, rfl, rfl, rfl⟩, hpos⟩,
          fun _ _ hl => AdjustCalls.Phase.noConfusion hl, fun h => Order.noConfusion h⟩
  | load =>
    cases steps_of_step h with
    | load horder hs =>
      cases hs with
      | load _ hload =>
        obtain ⟨hparams, hpos⟩ := hi.stored horder
        obtain ⟨he, hw⟩ := loadNew_window hparams hpos hload
        refine ⟨hi.role, fun h => ⟨?_, hpos⟩, fun _ fs hl => ?_, fun h => ?_⟩
        · exact (congrArg (HasParams · p) he).mpr hparams
        · cases hl
          rw [← he] at hw
          exact hw
        · exact absurd (horder.symm.trans h) Order.noConfusion
  | swap =>
    cases steps_of_step h with
    | swap horder hs =>
      cases hs with
      | swap hphase =>
        exact ⟨fun _ => hi.role (by rw [horder]; exact Order.noConfusion),
          fun h => Order.noConfusion h, fun h => Order.noConfusion h,
          fun _ => hi.loaded horder _ hphase⟩
  | tick | takeRole | connect | sendLine | finishReplay | handle | rotate =>
    exact hi.calls (step_calls h Action.noConfusion Action.noConfusion Action.noConfusion)

/-- Time does not run backwards, A's log stays as it is, and A looks for its lines once. -/
structure Later (utcOffset : ℤ) (s s' : State) : Prop where
  clock_le : s.clock ≤ s'.clock
  slaveLog : s'.slaveLog = s.slaveLog
  visited : s'.visited = s.visited ∧ (s.replay = .waiting → s'.replay = .waiting) ∨
    s'.visited = linesToSend utcOffset s.clock s.slaveLog

lemma step_later (h : step J hash utcOffset proxyQuery p s a = some s') :
    Later utcOffset s s' := by
  cases steps_of_step h with
  | tick => exact ⟨le_add_of_nonneg_right (Int.natCast_nonneg _), rfl, .inl ⟨rfl, id⟩⟩
  | connect => exact ⟨le_rfl, rfl, .inr rfl⟩
  | sendLine hsending =>
    exact ⟨le_rfl, rfl, .inl ⟨rfl, fun hw => absurd (hsending.symm.trans hw) Replay.noConfusion⟩⟩
  | finishReplay hsending =>
    exact ⟨le_rfl, rfl, .inl ⟨rfl, fun hw => absurd (hsending.symm.trans hw) Replay.noConfusion⟩⟩
  | takeRole | store | load | swap | handle | rotate => exact ⟨le_rfl, rfl, .inl ⟨rfl, id⟩⟩

/-- The lines A has found are those of the visited hours of its log. -/
structure Visited (utcOffset : ℤ) (dir : LogDir) (s : State) : Prop where
  slaveLog : s.slaveLog = dir
  visited : s.replay = .waiting ∨ ∃ t ≤ s.clock, s.visited = linesToSend utcOffset t dir

lemma Visited.step {dir : LogDir} (hv : Visited utcOffset dir s)
    (h : step J hash utcOffset proxyQuery p s a = some s') : Visited utcOffset dir s' := by
  obtain ⟨hle, hlog, hfound⟩ := step_later h
  refine ⟨hlog.trans hv.slaveLog, ?_⟩
  rcases hfound with ⟨hsame, hwaiting⟩ | hfound
  · rcases hv.visited with hw | ⟨t, ht, hvisited⟩
    · exact .inl (hwaiting hw)
    · exact .inr ⟨t, ht.trans hle, hsame.trans hvisited⟩
  · exact .inr ⟨s.clock, hle, hv.slaveLog ▸ hfound⟩

/-- A line that A has found is still to be read, or its frame is on the way. -/
def Underway (frame line : Str) (s : State) : Prop :=
  (∃ lines, s.replay = .sending lines ∧ line ∈ lines) ∨ frame ∈ s.frames

/-- A step takes a live record one step further on its way, unless B handles its frame. -/
lemma underway_step (h : step J hash utcOffset proxyQuery p s a = some s')
    (hframe : frameOfLine J s.clock line = .ok (some frame))
    (hs : line ∈ s.visited → Underway frame line s) (hline : line ∈ s'.visited) :
    Underway frame line s' ∨ a = .handle ∧ s.frames.head? = some frame := by
  cases steps_of_step h with
  | connect => exact .inl (.inl ⟨_, rfl, hline⟩)
  | @sendLine l lines _ hreplay hsent =>
    rcases hs hline with ⟨lines', hl, hm⟩ | hm
    · rw [hreplay] at hl
      cases hl
      rcases List.mem_cons.mp hm with rfl | hm
      · rw [hframe] at hsent
        cases hsent
        exact .inl (.inr (List.mem_append_right _ List.mem_cons_self))
      · exact .inl (.inl ⟨lines, rfl, hm⟩)
    · exact .inl (.inr (List.mem_append_left _ hm))
  | finishReplay hreplay =>
    rcases hs hline with ⟨lines', hl, hm⟩ | hm
    · rw [hreplay] at hl
      cases hl
      exact absurd hm List.not_mem_nil
    · exact .inl (.inr hm)
  | handle hframes =>
    rcases hs hline with hl | hm
    · exact .inl (.inl hl)
    · rw [hframes] at hm ⊢
      rcases List.mem_cons.mp hm with rfl | hm
      · exact .inr ⟨rfl, rfl⟩
      · exact .inl (.inr hm)
  | tick | takeRole | store | load | swap | rotate => exact .inl (hs hline)

/-- Among the actions there is a step in which B takes the frame off the connection. -/
def HandledIn (J : JsonLib) (hash : HashCalls) (utcOffset : ℤ)
    (proxyQuery : Str → ℤ → Except Fault Bool) (p : Params) (s : State) (actions : List Action)
    (frame : Str) : Prop :=
  ∃ before after s₁, actions = before ++ .handle :: after ∧
    run (step J hash utcOffset proxyQuery p) s before = some s₁ ∧ s₁.frames.head? = some frame

/-- A live record that A has found is underway or has been handled. -/
lemma underway_or_handled (h₀ : s.visited = [])
    (hrun : run (step J hash utcOffset proxyQuery p) s actions = some s')
    (hframe : ∀ t ≤ s'.clock, frameOfLine J t line = .ok (some frame)) (hline : line ∈ s'.visited) :
    Underway frame line s' ∨ HandledIn J hash utcOffset proxyQuery p s actions frame := by
  induction actions using List.reverseRecOn generalizing s' with
  | nil =>
    cases hrun
    rw [h₀] at hline
    exact absurd hline List.not_mem_nil
  | append_singleton actions a ih =>
    obtain ⟨s₁, h₁, hlast⟩ := run_append_eq_some.mp hrun
    obtain ⟨s₂, h₂, hnil⟩ := run_cons_eq_some.mp hlast
    cases hnil
    have hle := (step_later h₂).clock_le
    by_cases hhandled : HandledIn J hash utcOffset proxyQuery p s actions frame
    · obtain ⟨before, after, s₂, rfl, hbefore, hhead⟩ := hhandled
      exact .inr ⟨before, after ++ [a], s₂, by simp, hbefore, hhead⟩
    · have hs : line ∈ s₁.visited → Underway frame line s₁ := fun hl =>
        (ih h₁ (fun t ht => hframe t (ht.trans hle)) hl).resolve_right hhandled
      rcases underway_step h₂ (hframe _ hle) hs hline with hu | ⟨rfl, hhead⟩
      · exact .inl hu
      · exact .inr ⟨actions, [], s₁, rfl, h₁, hhead⟩

lemma clock_le_of_run (hrun : run (step J hash utcOffset proxyQuery p) s actions = some s') :
    s.clock ≤ s'.clock := by
  induction actions generalizing s with
  | nil =>
    cases hrun
    exact le_rfl
  | cons a actions ih =>
    obtain ⟨s₁, h₁, hrun⟩ := run_cons_eq_some.mp hrun
    exact (step_later h₁).clock_le.trans (ih hrun)

lemma rotationsIn_cons (a : Action) (actions : List Action) :
    rotationsIn (a :: actions) = rotationsIn [a] + rotationsIn actions := by
  unfold rotationsIn
  rw [← List.count_append, List.singleton_append]

/-- Once B's order is done, its steps are calls. -/
lemma calls_of_done (hdone : s.order = .done)
    (h : step J hash utcOffset proxyQuery p s a = some s') :
    Calls hash s a s' ∧ s'.order = .done := by
  have hc : Calls hash s a s' := by
    refine step_calls h ?_ ?_ ?_ <;>
    · rintro rfl
      simp [step, hdone] at h
  rcases hc.order with ⟨horder, -⟩ | ⟨hwaiting, -⟩
  · exact ⟨hc, horder.trans hdone⟩
  · exact absurd (hdone.symm.trans hwaiting) Order.noConfusion

/-- A run after B's order is done adds its calls to the history of the window. -/
lemma hasHistory_run {blank : BaseBloomFilter} {history : List Op} (hdone : s.order = .done)
    (hist : s.engine.HasHistory hash blank history)
    (hrun : run (step J hash utcOffset proxyQuery p) s later = some s') :
    ∃ ops, s'.engine.HasHistory hash blank (history ++ ops) ∧ rotations ops = rotationsIn later ∧
      s'.engine = { s.engine with filters := s'.engine.filters } := by
  induction later generalizing s history with
  | nil =>
    cases hrun
    exact ⟨[], by simpa using hist, rfl, rfl⟩
  | cons a later ih =>
    obtain ⟨s₁, h₁, hrun⟩ := run_cons_eq_some.mp hrun
    obtain ⟨hc, hdone₁⟩ := calls_of_done hdone h₁
    obtain ⟨ops, hr, hcount⟩ := hc.ops
    obtain ⟨filters, he, hist₁⟩ := hist.run hr
    obtain ⟨ops', hist', hcount', heng⟩ := ih hdone₁ hist₁ hrun
    refine ⟨ops ++ ops', by rw [← List.append_assoc]; exact hist', ?_, ?_⟩
    · rw [rotations_append, hcount, hcount', ← rotationsIn_cons]
    · rw [he] at heng
      exact heng

/-- As a proxy, B makes the revocation of a frame it handles. -/
lemma step_handle_proxy (hJ : J.RoundTrips) (hrole : s.nodeRole = .proxyNode)
    {expTimeStr : Str} (hstol : stol expTimeStr = .ok expTime) {frames : List Str}
    (hframes : s.frames = revokeFrame J token expTimeStr :: frames) :
    step J hash utcOffset proxyQuery p s .handle =
      match s.engine.revokeJwt hash s.clock token expTime with
      | .ok e => some { s with
          frames := frames
          proxy := { s.proxy with world := { s.proxy.world with engine := e } } }
      | .error _ => none := by
  have hprocess := @processTask_revokeFrame J hash hJ token expTimeStr expTime hstol s.clock
    proxyQuery s.engine
  simp only [step, hframes, hrole, hprocess]
  cases s.engine.revokeJwt hash s.clock token expTime <;> rfl

/-- In another role it changes nothing. -/
lemma step_handle_other (hJ : J.RoundTrips) (hrole : s.nodeRole ≠ .proxyNode)
    {expTimeStr : Str} {frames : List Str}
    (hframes : s.frames = revokeFrame J token expTimeStr :: frames) :
    step J hash utcOffset proxyQuery p s .handle = some { s with frames := frames } := by
  obtain ⟨data, hparse, -⟩ := JsonLib.msgParse_msgAssembly hJ "revoke_jwt"
    (revokeData token expTimeStr)
  have hevent : ("revoke_jwt" : Str) ≠ "is_jwt_revoked" := by decide
  have hprocess : Server.processTask J hash s.clock s.nodeRole proxyQuery s.engine
      (revokeFrame J token expTimeStr) = .ok (s.engine, none) := by
    unfold Server.processTask revokeFrame
    rw [hparse, ok_bind]
    dsimp only
    rw [if_neg hevent, if_neg fun h => hrole h.2]
    rfl
  simp only [step, hframes, hprocess]
  rfl

lemma engine_of_handle (hJ : J.RoundTrips) (hrole : s.nodeRole ≠ .proxyNode) {expTimeStr : Str}
    (hhead : s.frames.head? = some (revokeFrame J token expTimeStr))
    (h : step J hash utcOffset proxyQuery p s .handle = some s') : s'.engine = s.engine := by
  obtain ⟨frames, hframes⟩ := List.head?_eq_some_iff.mp hhead
  rw [step_handle_other hJ hrole hframes] at h
  cases h
  rfl

/-- B has handled the frame of a record in the step from `s₁` to `s₂`, and the actions
`after` have led from there to `s`. -/
structure Handled (J : JsonLib) (hash : HashCalls) (p : Params) (token : Str) (expTime : ℤ)
    (s₁ s₂ : State) (after : List Action) (s : State) : Prop where
  frame : ∃ expTimeStr, stol expTimeStr = .ok expTime ∧
    s₁.frames.head? = some (revokeFrame J token expTimeStr)
  ignored : s₁.nodeRole ≠ .proxyNode → s₂.engine = s₁.engine
  contained : s₁.order = .done → expTime - s₁.clock ≤ p.maxJwtLifeTime.toNat →
    (expTime - s.clock).toNat / p.rotationInterval.toNat + rotationsIn after ≤
      (expTime - s₁.clock).toNat / p.rotationInterval.toNat →
    ∀ f ∈ s.engine.filters.take ((expTime - s.clock).toNat / p.rotationInterval.toNat),
      f.contains hash token = true

lemma contained_of_handle {s₂ : State} {after : List Action} {expTimeStr : Str}
    (hJ : J.RoundTrips) (hi : Inv hash p s₁) (hstol : stol expTimeStr = .ok expTime)
    (hhead : s₁.frames.head? = some (revokeFrame J token expTimeStr))
    (hhandle : step J hash utcOffset proxyQuery p s₁ .handle = some s₂)
    (hafter : run (step J hash utcOffset proxyQuery p) s₂ after = some s)
    (hdone : s₁.order = .done)
    (ha : 0 < expTime - s₁.clock ∧ expTime - s₁.clock ≤ p.maxJwtLifeTime.toNat)
    (hrot : (expTime - s.clock).toNat / p.rotationInterval.toNat + rotationsIn after ≤
      (expTime - s₁.clock).toNat / p.rotationInterval.toNat) :
    ∀ f ∈ s.engine.filters.take ((expTime - s.clock).toNat / p.rotationInterval.toNat),
      f.contains hash token = true := by
  rcases Nat.eq_zero_or_pos ((expTime - s.clock).toNat / p.rotationInterval.toNat) with hz | hpos
  · rw [hz, List.take_zero]
    exact fun f hf => absurd hf List.not_mem_nil
  have hw := hi.done hdone
  have hrole := hi.role (by rw [hdone]; exact Order.noConfusion)
  have hM := hw.hasParams.maxJwtLifeTime
  have hR := hw.hasParams.rotationInterval
  -- a lifetime of at least one interval fits into the window, so there are filters
  have hnum : 0 < s₁.engine.filtersNum := by
    have hle := (Nat.div_pos_iff.mp (hpos.trans_le ((Nat.le_add_right _ _).trans hrot))).2
    rw [hw.hasParams.filtersNum]
    exact Nat.div_pos (by omega) hw.interval_pos
  obtain ⟨blank, history, hist⟩ := hw.hasHistory hnum
  have hop : s₁.engine.step hash (.revokeJwt token expTime s₁.clock) = .ok s₂.engine := by
    obtain ⟨frames, hframes⟩ := List.head?_eq_some_iff.mp hhead
    rw [step_handle_proxy hJ hrole hstol hframes] at hhandle
    split at hhandle
    · rename_i e he
      cases hhandle
      exact he
    · cases hhandle
  obtain ⟨filters, he, hist₂⟩ := hist.run (run_singleton hop)
  have hdone₂ := (calls_of_done hdone hhandle).2
  obtain ⟨ops, hist₃, hcount, hframe⟩ := hasHistory_run hdone₂ hist₂ hafter
  refine hist₃.contains_of_survivors fun i hlt => ?_
  rw [hframe, he]
  dsimp only
  rw [hM, hR, List.append_assoc, List.singleton_append]
  refine mem_survivors_of_rotations ha ?_
  rw [hcount]
  exact (natCast_lt_ediv_iff ha.1 _).mpr (by omega)

/-- In every order of the steps, when A has replayed its log and all frames are
handled, B has handled a frame of every live record A has found. A frame that B
handles as a proxy after its adjustment is in the filters the remaining lifetime
selects, unless it came too early or the filters have been rotated too often. -/
theorem handover_of_log {clock : ℤ} {nodeRole : NodeRole} {world : World} {slaveLog : LogDir}
    (hJ : J.RoundTrips)
    (hrun : run (step J hash utcOffset proxyQuery p) (start clock nodeRole world slaveLog)
      actions = some s)
    (hreplay : s.replay = .done) (hframes : s.frames = []) :
    (∃ t ≤ s.clock, s.visited = linesToSend utcOffset t slaveLog) ∧
    ∀ line ∈ s.visited, ∀ token expTime, recordOfLine line = some (token, expTime) →
      0 < expTime - s.clock → ∃ before after s₁ s₂, actions = before ++ .handle :: after ∧
        run (step J hash utcOffset proxyQuery p) (start clock nodeRole world slaveLog) before =
          some s₁ ∧
        step J hash utcOffset proxyQuery p s₁ .handle = some s₂ ∧
        Handled J hash p token expTime s₁ s₂ after s := by
  have hvisited : Visited utcOffset slaveLog s :=
    inv_of_run (fun _ _ _ hv h => Visited.step hv h) ⟨rfl, .inl rfl⟩ hrun
  have hinv : Inv hash p (start clock nodeRole world slaveLog) :=
    ⟨fun h => absurd rfl h, fun h => Order.noConfusion h, fun h => Order.noConfusion h,
      fun h => Order.noConfusion h⟩
  refine ⟨hvisited.visited.resolve_left (by rw [hreplay]; exact Replay.noConfusion), ?_⟩
  intro line hline token expTime hrecord hpos
  obtain ⟨expTimeStr, hsplit, hstol⟩ := recordOfLine_eq_some hrecord
  have hframe : ∀ t ≤ s.clock,
      frameOfLine J t line = .ok (some (revokeFrame J token expTimeStr)) := fun t ht =>
    frameOfLine_of_record hsplit hstol (by omega)
  rcases underway_or_handled rfl hrun hframe hline with hu | ⟨before, after, s₁, rfl, h₁, hhead⟩
  · -- nothing is on its way at the end
    rcases hu with ⟨lines, hsending, -⟩ | hm
    · exact absurd (hreplay.symm.trans hsending) Replay.noConfusion
    · rw [hframes] at hm
      exact absurd hm List.not_mem_nil
  · obtain ⟨s₁', h₁', hrest⟩ := run_append_eq_some.mp hrun
    obtain rfl := Option.some.inj (h₁.symm.trans h₁')
    obtain ⟨s₂, hhandle, hafter⟩ := run_cons_eq_some.mp hrest
    have hi : Inv hash p s₁ := inv_of_run (fun _ _ _ hi h => Inv.step hi h) hinv h₁
    have hle : s₁.clock ≤ s.clock := clock_le_of_run hrest
    exact ⟨before, after, s₁, s₂, rfl, h₁, hhandle, ⟨expTimeStr, hstol, hhead⟩,
      fun hrole => engine_of_handle hJ hrole hhead hhandle,
      fun hdone hmax hrot => contained_of_handle hJ hi hstol hhead hhandle hafter hdone
        ⟨by omega, hmax⟩ hrot⟩

/-- A single node on an empty log directory. -/
def sampleWorld : World :=
  (Engine.init (fun _ key => key.length) 0 0 ⟨30, 10, 8, 1⟩ ⟨{}, fun _ => none⟩).2

/-- It is ordered to become the proxy of a node with one record in its log. -/
def sampleStart (expTime : ℤ) : State :=
  start 0 .singleNode sampleWorld (writeAll 0 [⟨0, "a", expTime⟩])

def sampleStep : State → Action → Option State :=
  step jsonText (fun _ key => key.length) 0 (fun _ _ => .ok false) ⟨30, 10, 8, 1⟩

def sampleOrder : List Action := [.takeRole, .store, .load, .swap]

def sampleReplay : List Action := [.connect, .sendLine, .finishReplay]

theorem handover_of_log_order_first :
    ∃ s, run sampleStep (sampleStart 25) (sampleOrder ++ sampleReplay ++ [.handle]) = some s ∧
      (∃ t ≤ s.clock, s.visited = linesToSend 0 t (sampleStart 25).slaveLog) ∧
      ∀ line ∈ s.visited, ∀ token expTime, recordOfLine line = some (token, expTime) →
        0 < expTime - s.clock → ∃ before after s₁ s₂,
          sampleOrder ++ sampleReplay ++ [.handle] = before ++ .handle :: after ∧
          run sampleStep (sampleStart 25) before = some s₁ ∧ sampleStep s₁ .handle = some s₂ ∧
          Handled jsonText (fun _ key => key.length) ⟨30, 10, 8, 1⟩ token expTime s₁ s₂ after
            s := by
  have hstol : stol "25" = .ok 25 := by decide +kernel
  have hrun : run sampleStep (sampleStart 25) (sampleOrder ++ sampleReplay ++ [.handle]) =
      some _ :=
    run_append_eq_some.mpr ⟨_, rfl, run_cons_eq_some.mpr
      ⟨_, step_handle_proxy roundTrips_jsonText rfl hstol rfl, rfl⟩⟩
  exact ⟨_, hrun, handover_of_log roundTrips_jsonText hrun rfl rfl⟩

/-- Everything is done, and a filter the live record's lifetime selects lacks its token. -/
def SampleLost (expTime : ℤ) (s : State) : Prop :=
  s.order = .done ∧ s.replay = .done ∧ s.frames = [] ∧ logRecord "a" expTime ∈ s.visited ∧
    (0 < expTime - s.clock ∧ expTime - s.clock ≤ 30) ∧
    ∃ f ∈ s.engine.filters.take ((expTime - s.clock).toNat / 10),
      f.contains (fun _ key => key.length) "a" = false

/-- The frame arrives before the order; it arrives when the record's lifetime is still
too long; the filters are rotated before an interval of the lifetime is over. -/
theorem handed_over_revocation_lost :
    (∃ s, run sampleStep (sampleStart 25) (sampleReplay ++ .handle :: sampleOrder) = some s ∧
      SampleLost 25 s) ∧
    (∃ s, run sampleStep (sampleStart 35) (sampleOrder ++ sampleReplay ++ [.handle, .tick 10]) =
      some s ∧ SampleLost 35 s) ∧
    ∃ s, run sampleStep (sampleStart 25) (sampleOrder ++ sampleReplay ++ [.handle, .rotate]) =
      some s ∧ SampleLost 25 s := by
  have hearly : run sampleStep (sampleStart 25) (sampleReplay ++ .handle :: sampleOrder) =
      some _ :=
    run_append_eq_some.mpr ⟨_, rfl, run_cons_eq_some.mpr
      ⟨_, step_handle_other roundTrips_jsonText NodeRole.noConfusion rfl, rfl⟩⟩
  have h25 : stol "25" = .ok 25 := by decide +kernel
  have h35 : stol "35" = .ok 35 := by decide +kernel
  have hlong : run sampleStep (sampleStart 35)
      (sampleOrder ++ sampleReplay ++ [.handle, .tick 10]) = some _ :=
    run_append_eq_some.mpr ⟨_, rfl, run_cons_eq_some.mpr
      ⟨_, step_handle_proxy roundTrips_jsonText rfl h35 rfl, rfl⟩⟩
  have hrotated : run sampleStep (sampleStart 25)
      (sampleOrder ++ sampleReplay ++ [.handle, .rotate]) = some _ :=
    run_append_eq_some.mpr ⟨_, rfl, run_cons_eq_some.mpr
      ⟨_, step_handle_proxy roundTrips_jsonText rfl h25 rfl, rfl⟩⟩
  refine ⟨⟨_, hearly, rfl, rfl, rfl, ?_, by decide, ?_⟩,
    ⟨_, hlong, rfl, rfl, rfl, ?_, by decide, ?_⟩,
    ⟨_, hrotated, rfl, rfl, rfl, ?_, by decide, ?_⟩⟩
  all_goals decide +kernel

end JwtRevoker.Handover
