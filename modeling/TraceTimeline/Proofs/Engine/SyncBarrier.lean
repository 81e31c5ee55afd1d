import Mathlib
import TraceTimeline.Proofs.Engine.Reachable

/-!
# A sync payload is a barrier

After a sync payload was applied, nothing of the earlier run can be seen any more, now or later.
Two engines that differ in time line, nodes, highlight, cursor and follow mode agree on all of these
after both applied one payload, and whatever is done with both afterwards, they go on agreeing and
cause the same effects (`Engine.sync_barrier`).

The gate and the epoch are what a payload does not set.  The gate decides about one effect only, and
the epoch about none: `Engine.shifted` exchanges both in an engine, and every operation leads from
an engine and the shifted one to an engine and its shifted one.
-/

namespace TraceTimeline

namespace Engine

/-! ## Engines that differ in gate and epoch -/

/-- The engine with another gate, and with so many more replacements of the time line. -/
def shifted (e : Engine) (gate : Gate) (n : Nat) : Engine :=
  { e with gate := gate, epoch := e.epoch + n }

/-- What is done to an engine without looking at gate and epoch, or setting the gate. -/
def Oblivious (f : Engine → Engine) : Prop :=
  ∀ e gate n, f (e.shifted gate n) = (f e).shifted gate n

/-- What does not look at the gate does not set it either. -/
lemma Oblivious.gate_eq {f : Engine → Engine} (hf : Oblivious f) (e : Engine) :
    (f e).gate = e.gate := by
  have hself : e.shifted e.gate 0 = e := rfl
  have h := hf e e.gate 0
  rw [hself] at h
  rw [h]
  rfl

/-- Annotating the nodes is oblivious. -/
lemma oblivious_annotateStep (x : Step) (outcome : UpsertOutcome) :
    Oblivious (annotateStep · x outcome) := by
  intro e gate n
  have hcursor : (e.shifted gate n).store.cursor = e.store.cursor := rfl
  show (e.shifted gate n).annotateStep x outcome = (e.annotateStep x outcome).shifted gate n
  unfold annotateStep
  rw [hcursor]
  split
  · cases outcome <;> cases x.line <;> rfl
  · rfl

/-- An arriving step is taken note of without looking at gate and epoch. -/
lemma oblivious_applyStep (x : Step) : Oblivious (applyStep · x) := by
  intro e gate n
  simp only [applyStep_eq]
  have hstore : (e.shifted gate n).store = e.store := rfl
  rw [hstore]
  split
  · rfl
  · have hannotated := oblivious_annotateStep x (e.store.upsert x).2
      { e with store := ((e.store.upsert x).1.advanceLive x.id).1 } gate n
    split
    · exact congrArg (setHighlight · x.line) hannotated
    · exact hannotated

lemma oblivious_applySync (p : SyncPayload) : Oblivious (applySync · p) := by
  intro e gate n
  have hepoch : e.epoch + n + 1 = e.epoch + 1 + n := Nat.add_right_comm ..
  simp [applySync, shifted, setHighlight, hepoch]

/-- A frame is applied without looking at gate and epoch. -/
lemma oblivious_applyFrame (f : Frame) : Oblivious (applyFrame · f) := by
  intro e gate n
  cases f with
  | event x => exact oblivious_applyStep x e gate n
  | sync p => exact oblivious_applySync p e gate n
  | chunk channel text => rfl
  | flush channel => rfl

/-- The text of a frame releases the gate, whatever its state. -/
lemma handleFrame_shifted (e : Engine) (gate : Gate) (n : Nat) (text : String) :
    (e.shifted gate n).handleFrame text = (e.handleFrame text).shifted gate.release n := by
  unfold handleFrame
  dsimp only
  cases Frame.decode text with
  | ok f => exact oblivious_applyFrame f { e with gate := e.gate.release } gate.release n
  | error _ => rfl

/-- The gate is released by the text of a frame and by nothing that the frame says. -/
lemma gate_handleFrame (e : Engine) (text : String) :
    (e.handleFrame text).gate = e.gate.release := by
  unfold handleFrame
  dsimp only
  cases Frame.decode text with
  | ok f => exact (oblivious_applyFrame f).gate_eq { e with gate := e.gate.release }
  | error _ => rfl

/-! ## Running side by side -/

/-- The effects but for requests to resume the program, which the gate may hold back. -/
def ungated (effects : List Effect) : List Effect := effects.filter (· ≠ .send .resume)

lemma ungated_append (l m : List Effect) : ungated (l ++ m) = ungated l ++ ungated m :=
  List.filter_append ..

/-- Two results run side by side: the engines differ in gate and epoch only, and the effects in
requests to resume.  Under a condition the gates and the effects do not differ at all. -/
def SideBySide (n : Nat) (same : Prop) (r r' : Engine × List Effect) : Prop :=
  ∃ gate, r'.1 = r.1.shifted gate n ∧ ungated r'.2 = ungated r.2 ∧
    (same → gate = r.1.gate ∧ r'.2 = r.2)

lemma Oblivious.sideBySide {f : Engine → Engine} (hf : Oblivious f) (e : Engine) (gate : Gate)
    (n : Nat) (effects : List Effect) :
    SideBySide n (gate = e.gate) (f e, effects) (f (e.shifted gate n), effects) :=
  ⟨gate, hf e gate n, rfl, fun hgate => ⟨hgate.trans (hf.gate_eq e).symm, rfl⟩⟩

lemma sideBySide_handleFrame (e : Engine) (gate : Gate) (n : Nat) (text : String) :
    SideBySide n (gate = e.gate) (e.handleFrame text, [])
      ((e.shifted gate n).handleFrame text, []) := by
  refine ⟨gate.release, handleFrame_shifted e gate n text, rfl, fun hgate => ⟨?_, rfl⟩⟩
  rw [gate_handleFrame, hgate]

/-- One operation leads from engines that differ in gate and epoch to such engines. -/
lemma sideBySide_perform (e : Engine) (gate : Gate) (n : Nat) (op : Operation) :
    SideBySide n (gate = e.gate) (e.perform op) ((e.shifted gate n).perform op) := by
  have unchanged (effects : List Effect) :
      SideBySide n (gate = e.gate) (e, effects) (e.shifted gate n, effects) :=
    Oblivious.sideBySide (f := id) (fun _ _ _ => rfl) e gate n effects
  cases op with
  | transport event =>
    cases event with
    | connected g =>
      show SideBySide n _ (e.handleTransport (.connected g))
        ((e.shifted gate n).handleTransport (.connected g))
      have hgeneration : (e.shifted gate n).generation = e.generation := rfl
      unfold handleTransport
      dsimp only
      rw [hgeneration]
      split
      · exact unchanged []
      · exact Oblivious.sideBySide
          (f := fun e => { e with generation := some g, connection := .connected g })
          (fun _ _ _ => rfl) e gate n [.fetchSync g]
    | disconnected g reason =>
      show SideBySide n _ (if e.generation = some g then _ else e, [])
        (if e.generation = some g then _ else e.shifted gate n, [])
      split
      · exact Oblivious.sideBySide (f := fun e => { e with connection := .disconnected })
          (fun _ _ _ => rfl) e gate n []
      · exact unchanged []
    | frame g text =>
      show SideBySide n _ (if e.generation = some g then e.handleFrame text else e, [])
        (if e.generation = some g then (e.shifted gate n).handleFrame text
          else e.shifted gate n, [])
      split
      · exact sideBySide_handleFrame e gate n text
      · exact unchanged []
  | frameText text => exact sideBySide_handleFrame e gate n text
  | frame f => exact (oblivious_applyFrame f).sideBySide e gate n []
  | syncResponse g p =>
    show SideBySide n _ (if e.generation = some g then e.applySync p else e, [])
      (if e.generation = some g then (e.shifted gate n).applySync p else e.shifted gate n, [])
    split
    · exact (oblivious_applySync p).sideBySide e gate n []
    · exact unchanged []
  | selectNode line =>
    show SideBySide n _ (e.selectNode line) ((e.shifted gate n).selectNode line)
    have hstore : (e.shifted gate n).store = e.store := rfl
    unfold selectNode
    rw [hstore]
    split
    · exact unchanged _
    · exact unchanged []
  | selectStep id =>
    show SideBySide n _ (e.selectStep id) ((e.shifted gate n).selectStep id)
    have hstore : (e.shifted gate n).store = e.store := rfl
    unfold selectStep
    rw [hstore]
    split
    · next store _ =>
      exact Oblivious.sideBySide (f := fun e => { e with store := store }.refreshAnnotations)
        (fun _ _ _ => rfl) e gate n [.send (.selectStep id)]
    · exact unchanged []
  | followLive => exact Oblivious.sideBySide (f := followLive) (fun _ _ _ => rfl) e gate n []
  | requestContinue now =>
    -- a request to resume is the only effect that the gate may hold back
    have held (passed : Bool) : ungated (if passed then [.send .resume] else []) = [] := by
      cases passed <;> rfl
    refine ⟨(gate.pass now).1, rfl, ?_, fun hgate => ?_⟩
    · exact (held (gate.pass now).2).trans (held (e.gate.pass now).2).symm
    · subst hgate
      exact ⟨rfl, rfl⟩
  | editNode line code =>
    exact Oblivious.sideBySide (f := fun e => (e.editNode line code).1) (fun _ _ _ => rfl) e gate n
      [.send (.updateCode line code)]
  | clearOutput => exact Oblivious.sideBySide (f := clearOutput) (fun _ _ _ => rfl) e gate n []
  | restartBackend => exact unchanged [.startBackend]
  | backendRestarted =>
    have hcleared : Oblivious fun e => e.backendRestarted.1 := by
      intro e gate n
      have hepoch : e.epoch + n + 1 = e.epoch + 1 + n := Nat.add_right_comm ..
      simp [backendRestarted, shifted, hepoch]
    exact hcleared.sideBySide e gate n e.backendRestarted.2

/-- So does a list of operations. -/
lemma sideBySide_run (e : Engine) (gate : Gate) (n : Nat) (ops : List Operation) :
    SideBySide n (gate = e.gate) (e.run ops) ((e.shifted gate n).run ops) := by
  induction ops generalizing e gate with
  | nil => exact ⟨gate, rfl, rfl, fun hgate => ⟨hgate, rfl⟩⟩
  | cons op rest ih =>
    obtain ⟨gate', hfirst, hungated, hsame⟩ := sideBySide_perform e gate n op
    obtain ⟨gate'', hrest, hungated', hsame'⟩ := ih (e.perform op).1 gate'
    have heffects : ((e.shifted gate n).run (op :: rest)).2 =
        ((e.shifted gate n).perform op).2 ++ (((e.perform op).1.shifted gate' n).run rest).2 := by
      rw [← hfirst]
      rfl
    refine ⟨gate'', ?_, ?_, fun hgate => ?_⟩
    · show (((e.shifted gate n).perform op).1.run rest).1 = _
      rw [hfirst]
      exact hrest
    · rw [heffects, ungated_append, hungated, hungated', ← ungated_append]
      rfl
    · obtain ⟨hgate', hsent⟩ := hsame hgate
      obtain ⟨hgate'', hsent'⟩ := hsame' hgate'
      refine ⟨hgate'', ?_⟩
      rw [heffects, hsent, hsent']
      rfl

/-! ## Applying a payload -/

/-- An operation by which an engine applies a sync payload: a frame, decoded or as text, or the
answer to a fetch for the current connection. -/
inductive Delivers (p : SyncPayload) (e : Engine) : Operation → Prop where
  | frame : Delivers p e (.frame (.sync p))
  | response {g : Nat} (hg : e.generation = some g) : Delivers p e (.syncResponse g p)
  | text {text : String} (h : Frame.decode text = .ok (.sync p)) : Delivers p e (.frameText text)
  | received {g : Nat} {text : String} (hg : e.generation = some g)
      (h : Frame.decode text = .ok (.sync p)) : Delivers p e (.transport (.frame g text))

/-- Whether an operation hands over the text of a frame, which releases the gate. -/
def Operation.isText : Operation → Bool
  | .frameText _ => true
  | .transport (.frame _ _) => true
  | _ => false

/-- The gate after an operation that applies a payload. -/
def Operation.gateAfter (op : Operation) (gate : Gate) : Gate :=
  if op.isText then gate.release else gate

/-- In whichever way a payload arrives, it is applied, and nothing else happens. -/
lemma Delivers.perform_eq {p : SyncPayload} {e : Engine} {op : Operation} (h : Delivers p e op) :
    e.perform op = ({ e.applySync p with gate := op.gateAfter e.gate }, []) := by
  have htext {text : String} (h : Frame.decode text = .ok (.sync p)) :
      e.handleFrame text = { e.applySync p with gate := e.gate.release } := by
    unfold handleFrame
    rw [h]
    rfl
  cases h with
  | frame => rfl
  | response hg =>
    show (if e.generation = some _ then e.applySync p else e, []) = _
    rw [if_pos hg]
    rfl
  | text h => exact congrArg (·, []) (htext h)
  | received hg h =>
    show (if e.generation = some _ then e.handleFrame _ else e, []) = _
    rw [if_pos hg, htext h]
    rfl

/-- After a payload was applied, an engine shows nothing of its earlier time line, nodes and
highlight. -/
lemma applySync_eq_of_settings {e₁ e₂ : Engine} (hcapacity : e₁.store.capacity = e₂.store.capacity)
    (hpolicy : e₁.store.policy = e₂.store.policy) (hgeneration : e₁.generation = e₂.generation)
    (hconnection : e₁.connection = e₂.connection) (houtput : e₁.output = e₂.output)
    (p : SyncPayload) :
    e₂.applySync p = { e₁.applySync p with gate := e₂.gate, epoch := e₂.epoch + 1 } := by
  unfold applySync
  rw [Store.replaceAll_eq_of_settings hcapacity hpolicy]
  simp [setHighlight, hgeneration, hconnection, houtput]

/-! ## The barrier -/

/-- Two engines show the same, except for gate and epoch. -/
structure Agree (e₁ e₂ : Engine) : Prop where
  /-- The time lines are the same, and so is every lookup in them. -/
  store : e₁.store = e₂.store
  nodes : e₁.nodes = e₂.nodes
  highlighted : e₁.highlighted = e₂.highlighted
  scope : e₁.scope = e₂.scope
  output : e₁.output = e₂.output
  connection : e₁.connection = e₂.connection
  generation : e₁.generation = e₂.generation

/-- One engine with two gates and two epochs goes through the same operations twice: the results
agree. -/
lemma agree_run (e : Engine) (gate₁ gate₂ : Gate) (n₁ n₂ : Nat) (ops : List Operation) :
    let r₁ := (e.shifted gate₁ n₁).run ops
    let r₂ := (e.shifted gate₂ n₂).run ops
    r₁.1.Agree r₂.1 ∧ r₁.1.epoch + n₂ = r₂.1.epoch + n₁ ∧ ungated r₁.2 = ungated r₂.2 ∧
      (gate₁ = gate₂ → r₁.1.gate = r₂.1.gate ∧ r₁.2 = r₂.2) := by
  intro r₁ r₂
  -- both are compared with the engine that has the first gate and the original epoch
  obtain ⟨gate, hrun, hungated, hsame⟩ := sideBySide_run (e.shifted gate₁ 0) gate₁ n₁ ops
  obtain ⟨gate', hrun', hungated', hsame'⟩ := sideBySide_run (e.shifted gate₁ 0) gate₂ n₂ ops
  change r₁.1 = _ at hrun
  change r₂.1 = _ at hrun'
  refine ⟨?_, ?_, hungated.trans hungated'.symm, fun hgate => ?_⟩
  · rw [hrun, hrun']
    exact ⟨rfl, rfl, rfl, rfl, rfl, rfl, rfl⟩
  · rw [hrun, hrun']
    simp only [shifted]
    omega
  · obtain ⟨hgate₁, heffects⟩ := hsame rfl
    obtain ⟨hgate₂, heffects'⟩ := hsame' hgate.symm
    refine ⟨?_, heffects.trans heffects'.symm⟩
    rw [hrun, hrun']
    exact hgate₁.trans hgate₂.symm

/-- After one payload, two engines with the same settings, connection and output are one engine
with two gates and two epochs. -/
lemma exists_common_of_delivers {e₁ e₂ : Engine} {p : SyncPayload} {op₁ op₂ : Operation}
    (hcapacity : e₁.store.capacity = e₂.store.capacity)
    (hpolicy : e₁.store.policy = e₂.store.policy) (hgeneration : e₁.generation = e₂.generation)
    (hconnection : e₁.connection = e₂.connection) (houtput : e₁.output = e₂.output)
    (hop₁ : Delivers p e₁ op₁) (hop₂ : Delivers p e₂ op₂) :
    ∃ common : Engine,
      e₁.perform op₁ = (common.shifted (op₁.gateAfter e₁.gate) (e₁.epoch + 1), []) ∧
        e₂.perform op₂ = (common.shifted (op₂.gateAfter e₂.gate) (e₂.epoch + 1), []) := by
  refine ⟨{ e₁.applySync p with epoch := 0 }, ?_, ?_⟩
  · rw [hop₁.perform_eq]
    simp [shifted, applySync, setHighlight]
  · rw [hop₂.perform_eq,
      applySync_eq_of_settings hcapacity hpolicy hgeneration hconnection houtput]
    simp [shifted]

/-- Applying a payload leaves the connection alone, so that the payload can be applied again. -/
lemma Delivers.congr {p : SyncPayload} {e e' : Engine} {op : Operation} (h : Delivers p e op)
    (hgeneration : e.generation = e'.generation) : Delivers p e' op := by
  cases h with
  | frame => exact .frame
  | response hg => exact .response (hgeneration ▸ hg)
  | text h => exact .text h
  | received hg h => exact .received (hgeneration ▸ hg) h

lemma gateAfter_gateAfter (op : Operation) (gate : Gate) :
    op.gateAfter (op.gateAfter gate) = op.gateAfter gate := by
  unfold Operation.gateAfter
  split <;> rfl

/-- A payload that is applied once more changes nothing but the epoch. -/
lemma Delivers.run_twice {p : SyncPayload} {e : Engine} {op : Operation} (h : Delivers p e op) :
    e.run [op, op] =
      ({ (e.run [op]).1 with epoch := (e.run [op]).1.epoch + 1 }, (e.run [op]).2) := by
  let once : Engine := { e.applySync p with gate := op.gateAfter e.gate }
  have hfirst : e.perform op = (once, []) := h.perform_eq
  have hstore := e.store.capacity_and_policy_perform (.replaceAll p.timeline p.cursor)
  have hcapacity : e.store.capacity = once.store.capacity := hstore.1.symm
  have hpolicy : e.store.policy = once.store.policy := hstore.2.symm
  -- the second time the payload meets the contents that it made itself
  have hagain : once.applySync p = { once with epoch := once.epoch + 1 } :=
    applySync_eq_of_settings hcapacity hpolicy rfl rfl rfl p
  have hsecond : once.perform op = ({ once with epoch := once.epoch + 1 }, []) := by
    have hgate : op.gateAfter once.gate = once.gate := gateAfter_gateAfter op e.gate
    have honce : Delivers p once op := h.congr rfl
    rw [honce.perform_eq, hagain, hgate]
  simp [run, hfirst, hsecond]

/-- A sync payload is a barrier.  Take two reachable engines with the same settings, connection,
output and gate; nothing is assumed about their time lines, nodes, highlights, cursors and follow
modes.  After both applied one payload and then underwent the same operations, they agree, their
epochs are as far apart as before, and they caused the same effects.  Text releases the gate: if the
payload arrived as text at one engine only, a request to resume may pass at that one and not at the
other.  A payload that is applied once more changes nothing but the epoch. -/
theorem sync_barrier {settings : EngineSettings} {e₁ e₂ : Engine} {p : SyncPayload}
    {op₁ op₂ : Operation} (h₁ : Reachable settings e₁) (h₂ : Reachable settings e₂)
    (hgeneration : e₁.generation = e₂.generation) (hconnection : e₁.connection = e₂.connection)
    (houtput : e₁.output = e₂.output) (hgate : e₁.gate = e₂.gate)
    (hop₁ : Delivers p e₁ op₁) (hop₂ : Delivers p e₂ op₂) :
    (∀ later : List Operation,
      let r₁ := e₁.run (op₁ :: later)
      let r₂ := e₂.run (op₂ :: later)
      r₁.1.Agree r₂.1 ∧ r₁.1.epoch + e₂.epoch = r₂.1.epoch + e₁.epoch ∧
        ungated r₁.2 = ungated r₂.2 ∧
        (op₁.isText = op₂.isText → r₁.1.gate = r₂.1.gate ∧ r₁.2 = r₂.2)) ∧
      e₁.run [op₁, op₁] =
        ({ (e₁.run [op₁]).1 with epoch := (e₁.run [op₁]).1.epoch + 1 }, (e₁.run [op₁]).2) := by
  have hcapacity : e₁.store.capacity = e₂.store.capacity := by
    rw [h₁.capacity_eq, h₂.capacity_eq]
  have hpolicy : e₁.store.policy = e₂.store.policy := by
    rw [h₁.policy_eq, h₂.policy_eq]
  -- both engines are one common engine, up to the gate and the epoch
  obtain ⟨common, hfirst₁, hfirst₂⟩ :=
    exists_common_of_delivers hcapacity hpolicy hgeneration hconnection houtput hop₁ hop₂
  refine ⟨fun later => ?_, hop₁.run_twice⟩
  intro r₁ r₂
  have hr₁ : r₁ = (common.shifted (op₁.gateAfter e₁.gate) (e₁.epoch + 1)).run later := by
    simp [r₁, run, hfirst₁]
  have hr₂ : r₂ = (common.shifted (op₂.gateAfter e₂.gate) (e₂.epoch + 1)).run later := by
    simp [r₂, run, hfirst₂]
  obtain ⟨hagree, hepoch, hungated, hsame⟩ := agree_run common (op₁.gateAfter e₁.gate)
    (op₂.gateAfter e₂.gate) (e₁.epoch + 1) (e₂.epoch + 1) later
  rw [← hr₁, ← hr₂] at hagree hepoch hungated hsame
  refine ⟨hagree, by omega, hungated, fun htext => hsame ?_⟩
  simp [Operation.gateAfter, htext, hgate]

/-- An engine that is pinned in an earlier run, and one that is freshly connected: the first gets
the payload in a frame and the second as the answer to a fetch. -/
theorem sync_barrier_pinned_and_fresh :
    let settings : EngineSettings := ⟨2, .sticky, 8, 1000⟩
    let p : SyncPayload :=
      ⟨[⟨"3", "x = 1", none⟩], [Step.ofLine 2 3, Step.ofLine 1 4], some 2, none⟩
    let pinned := ((new settings).run
      [.transport (.connected 1), .frame (.event (Step.ofLine 6 5)),
        .frame (.event (Step.ofLine 7 5)), .frame (.event (Step.ofLine 8 9)), .selectStep 7]).1
    let fresh := ((new settings).run [.transport (.connected 1)]).1
    let later := [.frame (.event (Step.ofLine 3 3)), .requestContinue 5]
    let r₁ := pinned.run (.frame (.sync p) :: later)
    let r₂ := fresh.run (.syncResponse 1 p :: later)
    pinned.store.horizon = some 6 ∧ pinned.store.follow = .pinned ∧ fresh.store.horizon = none ∧
      r₁.1.Agree r₂.1 ∧ r₁.2 = r₂.2 := by
  intro settings p pinned fresh later r₁ r₂
  have hpinned : Reachable settings pinned := ⟨_, rfl⟩
  have hfresh : Reachable settings fresh := ⟨_, rfl⟩
  have hgeneration : pinned.generation = fresh.generation := by decide +kernel
  have hconnection : pinned.connection = fresh.connection := by decide +kernel
  have houtput : pinned.output = fresh.output := by decide +kernel
  have hgate : pinned.gate = fresh.gate := by decide +kernel
  have hfetched : fresh.generation = some 1 := by decide +kernel
  obtain ⟨hagree, -, -, hsame⟩ := (sync_barrier hpinned hfresh hgeneration hconnection houtput hgate
    (Delivers.frame (p := p)) (.response hfetched)).1 later
  exact ⟨by decide +kernel, by decide +kernel, by decide +kernel, hagree, (hsame rfl).2⟩

end Engine

end TraceTimeline
