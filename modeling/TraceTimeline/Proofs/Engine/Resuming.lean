import TraceTimeline.Proofs.Engine.Visible

/-!
# How often the program is resumed

The backend is asked to resume the program at the operator's request only, and not every request
passes the gate.  What the rest of an engine does to the gate is little: the text of a frame of the
current connection releases it, whatever the text says (`Engine.Operation.isHeard`), and nothing
else touches it (`Engine.gate_perform`).

A gate is compared with a later one by the times at which they are open.  As long as no frame is
heard, the later gate is open at no other times than the earlier one (`Engine.isOpen_of_run`), and
as long as nothing passes, it is open at all these times (`Engine.isOpen_run`).  From the first
follows that two requests that pass without a frame in between are the timeout apart, and from the
second that a request passes when it should: `Engine.resume_rate_limited`.  Nothing is assumed about
the clock, which may go backwards.
-/

namespace TraceTimeline

/-! ## The gate -/

namespace Gate

variable {g : Gate} {now later : Millis}

lemma pass_of_isOpen (h : g.isOpen now = true) :
    g.pass now = ({ g with shutAt := some now }, true) := by
  rw [pass, if_pos h]

lemma pass_of_not_isOpen (h : g.isOpen now = false) : g.pass now = (g, false) := by
  rw [pass, if_neg (by simp [h])]

lemma isOpen_shutAt_iff {timeout : Millis} :
    Gate.isOpen ⟨timeout, some now⟩ later = true ↔ timeout ≤ later - now :=
  decide_eq_true_iff

/-- A gate that a request passed is open at no other times than before. -/
lemma isOpen_of_pass (h : (g.pass now).1.isOpen later = true) : g.isOpen later = true := by
  cases hopen : g.isOpen now with
  | false => rwa [pass_of_not_isOpen hopen] at h
  | true =>
    rw [pass_of_isOpen hopen] at h
    obtain ⟨timeout, shutAt⟩ := g
    cases shutAt with
    | none => rfl
    | some before =>
      -- the timeout passed between the two requests, and once more since the second
      have hfirst : timeout ≤ now - before := isOpen_shutAt_iff.1 hopen
      have hsecond : timeout ≤ later - now := isOpen_shutAt_iff.1 h
      have hboth {a b c d : Nat} (h : a ≤ c - b) (h' : a ≤ d - c) : a ≤ d - b := by omega
      exact isOpen_shutAt_iff.2 (hboth hfirst hsecond)

end Gate

namespace Engine

variable {e : Engine} {op : Operation} {ops : List Operation} {t : Millis}

/-! ## The gate in an operation -/

/-- Whether the text of a frame is handled in an operation, by an engine whose connection is of a
generation.  It does not matter what the text says. -/
def Operation.isHeard (generation : Option Nat) : Operation → Bool
  | .transport (.frame g _) => generation = some g
  | .frameText _ => true
  | _ => false

/-- The gate after an operation: a request may pass it, a frame that is heard releases it, and
nothing else matters. -/
lemma gate_perform (e : Engine) (op : Operation) :
    (e.perform op).1.gate =
      match op with
      | .requestContinue now => (e.gate.pass now).1
      | _ => if op.isHeard e.generation then e.gate.release else e.gate := by
  cases op with
  | transport event =>
    cases event with
    | connected g =>
      show (e.handleTransport (.connected g)).1.gate = e.gate
      unfold handleTransport
      dsimp only
      split <;> rfl
    | disconnected g reason =>
      show (if e.generation = some g then _ else e).gate = e.gate
      split <;> rfl
    | frame g text =>
      show (if e.generation = some g then e.handleFrame text else e).gate =
        if decide (e.generation = some g) then e.gate.release else e.gate
      by_cases hg : e.generation = some g
      · rw [if_pos hg, if_pos (decide_eq_true hg), gate_handleFrame]
      · rw [if_neg hg, if_neg (by simpa using hg)]
  | frameText text => exact gate_handleFrame e text
  | frame f => exact (oblivious_applyFrame f).gate_eq e
  | syncResponse g p =>
    show (if e.generation = some g then e.applySync p else e).gate = e.gate
    split <;> rfl
  | selectNode line =>
    show (e.selectNode line).1.gate = e.gate
    unfold selectNode
    split <;> rfl
  | selectStep id =>
    show (e.selectStep id).1.gate = e.gate
    unfold selectStep
    split <;> rfl
  | followLive => rfl
  | requestContinue now => rfl
  | editNode line code => rfl
  | clearOutput => rfl
  | restartBackend => rfl
  | backendRestarted => rfl

/-- A request of the operator at a time is passed on: the backend is asked to resume the program. -/
def Resumes (e : Engine) (now : Millis) : Prop := .send .resume ∈ (e.requestContinue now).2

instance : Decidable (e.Resumes t) := inferInstanceAs (Decidable (_ ∈ _))

lemma resumes_iff : e.Resumes t ↔ e.gate.isOpen t = true := by
  unfold Resumes requestContinue
  cases hopen : e.gate.isOpen t with
  | false => simp [Gate.pass_of_not_isOpen hopen]
  | true => simp [Gate.pass_of_isOpen hopen]

/-- The backend is asked to resume the program at a request of the operator only. -/
lemma exists_of_resume_mem_perform (h : .send .resume ∈ (e.perform op).2) :
    ∃ now, op = .requestContinue now ∧ e.Resumes now := by
  cases mem_effects_iff.1 h with
  | @resume now _ => exact ⟨now, rfl, h⟩

/-! ## When the gate is open -/

/-- Without a frame that is heard, the gate is open at no other times after an operation than
before. -/
lemma isOpen_of_perform (hop : op.isHeard e.generation = false)
    (h : (e.perform op).1.gate.isOpen t = true) : e.gate.isOpen t = true := by
  rw [gate_perform] at h
  split at h
  · next now => exact Gate.isOpen_of_pass h
  · rwa [if_neg (by simp [hop])] at h

/-- If nothing passes the gate in an operation, it is open at all times at which it was. -/
lemma isOpen_perform (hop : .send .resume ∉ (e.perform op).2) (h : e.gate.isOpen t = true) :
    (e.perform op).1.gate.isOpen t = true := by
  rw [gate_perform]
  split
  · next now =>
    have hshut : e.gate.isOpen now = false :=
      Bool.eq_false_iff.2 fun hopen => hop (resumes_iff.2 hopen)
    rwa [Gate.pass_of_not_isOpen hshut]
  · split
    · rfl
    · exact h

/-- Without a frame that is heard, the gate is open at no other times after a list of operations
than before. -/
lemma isOpen_of_run (hops : Along (fun e op => op.isHeard e.generation = false) e ops)
    (h : (e.run ops).1.gate.isOpen t = true) : e.gate.isOpen t = true := by
  induction ops generalizing e with
  | nil => exact h
  | cons op rest ih => exact isOpen_of_perform hops.1 (ih hops.2 h)

/-- If nothing passes the gate in a list of operations, it is open at all times at which it was. -/
lemma isOpen_run (hops : .send .resume ∉ (e.run ops).2) (h : e.gate.isOpen t = true) :
    (e.run ops).1.gate.isOpen t = true := by
  induction ops generalizing e with
  | nil => exact h
  | cons op rest ih =>
    obtain ⟨hfirst, hrest⟩ := not_or.1 (mt List.mem_append.2 hops)
    exact ih hrest (isOpen_perform hfirst h)

lemma Resumes.gate_eq (h : e.Resumes t) :
    (e.requestContinue t).1.gate = { e.gate with shutAt := some t } := by
  unfold requestContinue
  rw [Gate.pass_of_isOpen (resumes_iff.1 h)]

/-- The timeout stays what it was set up to be. -/
lemma timeout_run (e : Engine) (ops : List Operation) :
    (e.run ops).1.gate.timeout = e.gate.timeout := by
  induction ops generalizing e with
  | nil => rfl
  | cons op rest ih =>
    refine (ih (e.perform op).1).trans ?_
    rw [gate_perform]
    split
    · unfold Gate.pass
      split <;> rfl
    · split <;> rfl

/-- Either all operations of a list meet a condition, or the list can be split at one that does
not. -/
lemma along_or_exists (P : Engine → Operation → Prop) (e : Engine) (ops : List Operation) :
    Along P e ops ∨
      ∃ before op after, ops = before ++ op :: after ∧ ¬ P (e.run before).1 op := by
  induction ops generalizing e with
  | nil => exact .inl trivial
  | cons op rest ih =>
    by_cases hop : P e op
    · rcases ih (e.perform op).1 with hrest | ⟨before, other, after, rfl, hother⟩
      · exact .inl ⟨hop, hrest⟩
      · exact .inr ⟨op :: before, other, after, rfl, hother⟩
    · exact .inr ⟨[], op, rest, rfl, hop⟩

/-- Requests to resume the program are rate limited by what is heard of the backend.  Take any
operations of a new engine, with any readings of the clock.  The backend is asked to resume at a
request of the operator only.  Of two requests that are passed on, the later one is the timeout
after the earlier one, unless a frame was heard in between.  Conversely a request is passed on if
none was since the beginning, if none was since a frame was heard, and if the last one that was is
the timeout before it.  An operation in which no frame is heard opens the gate at no time, and
unless it is a request it leaves the gate alone. -/
theorem resume_rate_limited (settings : EngineSettings) (ops : List Operation) :
    let fresh := new settings
    let e := (fresh.run ops).1
    let resumed (t : Millis) := (e.requestContinue t).1
    (∀ op, .send .resume ∈ (e.perform op).2 → ∃ t, op = .requestContinue t ∧ e.Resumes t) ∧
    (∀ t₁ t₂ between, e.Resumes t₁ → ((resumed t₁).run between).1.Resumes t₂ →
      (∃ before op after, between = before ++ op :: after ∧
        op.isHeard ((resumed t₁).run before).1.generation = true) ∨
      settings.continueTimeout ≤ t₂ - t₁) ∧
    (∀ t, .send .resume ∉ (fresh.run ops).2 → e.Resumes t) ∧
    (∀ op later t, op.isHeard e.generation = true →
      .send .resume ∉ ((e.perform op).1.run later).2 → ((e.perform op).1.run later).1.Resumes t) ∧
    (∀ t₁ t later, e.Resumes t₁ → .send .resume ∉ ((resumed t₁).run later).2 →
      settings.continueTimeout ≤ t - t₁ → ((resumed t₁).run later).1.Resumes t) ∧
    ∀ op, op.isHeard e.generation = false →
      (∀ t, (e.perform op).1.continueEnabled t = true → e.continueEnabled t = true) ∧
      ((∀ t, op ≠ .requestContinue t) → (e.perform op).1.gate = e.gate) := by
  intro fresh e resumed
  have htimeout : e.gate.timeout = settings.continueTimeout := timeout_run fresh ops
  -- after a request that passed, the gate is shut until the timeout is over
  have hshut {t₁ t : Millis} (h : e.Resumes t₁) :
      (resumed t₁).gate.isOpen t = true ↔ settings.continueTimeout ≤ t - t₁ := by
    rw [h.gate_eq, ← htimeout]
    exact Gate.isOpen_shutAt_iff
  refine ⟨fun op => exists_of_resume_mem_perform, ?_, ?_, ?_, ?_, ?_⟩
  · intro t₁ t₂ between hfirst hsecond
    -- silent in between, or split at a frame that was heard
    rcases along_or_exists (fun e op => op.isHeard e.generation = false) (resumed t₁) between with
      hsilent | ⟨before, op, after, hsplit, hheard⟩
    · exact .inr ((hshut hfirst).1 (isOpen_of_run hsilent (resumes_iff.1 hsecond)))
    · exact .inl ⟨before, op, after, hsplit, Bool.eq_true_of_not_eq_false hheard⟩
  · intro t hnone
    exact resumes_iff.2 (isOpen_run hnone rfl)
  · intro op later t hheard hnone
    have hopen : (e.perform op).1.gate.isOpen t = true := by
      rw [gate_perform]
      split
      · cases hheard
      · rw [if_pos hheard]
        rfl
    exact resumes_iff.2 (isOpen_run hnone hopen)
  · intro t₁ t later hfirst hnone hlate
    exact resumes_iff.2 (isOpen_run hnone ((hshut hfirst).2 hlate))
  · intro op hsilent
    refine ⟨fun t => isOpen_of_perform hsilent, fun hrequest => ?_⟩
    rw [gate_perform]
    split
    · next now => exact absurd rfl (hrequest now)
    · rw [if_neg (by simp [hsilent])]

/-- A request passes at 5000.  Others before their time, with the clock going back to 3000, do not,
nor do they after a frame of another connection and one that did not come as text; the next one
passes at 6000.  A text that is no frame makes one pass at 3000 all the same. -/
theorem resume_rate_limited_backwards :
    let e := ((new ⟨8, .sticky, 8, 1000⟩).run [.transport (.connected 1)]).1
    let resumed := (e.requestContinue 5000).1
    let unheard : List Operation := [.requestContinue 5999, .transport (.frame 2 "x"),
      .requestContinue 3000, .frame (.chunk .stdout "x"), .requestContinue 5001]
    let heard : Operation := .transport (.frame 1 "x")
    e.Resumes 5000 ∧ .send .resume ∉ (resumed.run unheard).2 ∧
      (resumed.run unheard).1.Resumes 6000 ∧
      (resumed.run (unheard ++ [heard])).1.Resumes 3000 ∧
      (∃ before op after, unheard ++ [heard] = before ++ op :: after ∧
        op.isHeard (resumed.run before).1.generation = true) ∧
      (e.perform (.transport (.frame 2 "x"))).1.gate = e.gate := by
  intro e resumed unheard heard
  obtain ⟨-, hapart, hfirst, -, hlate, hnothing⟩ :=
    resume_rate_limited ⟨8, .sticky, 8, 1000⟩ [.transport (.connected 1)]
  have hresumes : e.Resumes 5000 := hfirst 5000 (by decide +kernel)
  have hheld : .send .resume ∉ (resumed.run unheard).2 := by decide +kernel
  have hreleased : (resumed.run (unheard ++ [heard])).1.Resumes 3000 := by decide +kernel
  exact ⟨hresumes, hheld, hlate 5000 6000 unheard hresumes hheld (by decide), hreleased,
    (hapart 5000 3000 _ hresumes hreleased).resolve_right (by decide),
    (hnothing (.transport (.frame 2 "x")) (by decide +kernel)).2 (by simp)⟩

end Engine

end TraceTimeline
