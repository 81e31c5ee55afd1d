import Mathlib
import TraceTimeline.Engine.Feed
import TraceTimeline.Proofs.Engine.Restart
import TraceTimeline.Proofs.Engine.Visible

/-!
# What a feed keeps

The answer to a connection's fetch takes the place of everything that was there before, pushed steps
included.  A step that was recorded after the fetch was served and arrived before the answer is
gone, and nothing brings it back (`Feed.early_push_is_dropped`).  That is all that is lost: once
everything has arrived, the time line holds the steps of the answer and those that arrived after it
(`Feed.retained_iff`).

The argument is an invariant of the feed (`Feed.Underway`).  Until the answer arrives it says
nothing about the time line, and from then on it says that the store holds the chronicle of the
payload's steps and the steps that arrived since.
-/

namespace TraceTimeline

namespace Feed

variable {settings : EngineSettings} {earlier : List Step} {f : Feed}

/-! ## The invariant -/

/-- How the fetch of a feed stands to its log, to what has arrived, and to the store. -/
inductive Fetched (earlier : List Step) (f : Feed) : Prop where
  /-- The fetch is out. -/
  | asked (hfetch : f.fetch = .asked)
      (hout : f.host.outstanding.get? f.number = some f.generation)
  /-- The fetch is out, and the payload for it holds what was recorded when it was served. -/
  | served {p : SyncPayload} (hfetch : f.fetch = .served p)
      (hout : f.host.outstanding.get? f.number = some f.generation)
      (hearlier : earlier ⊆ p.timeline) (hlog : p.timeline <+: f.log)
  /-- The payload has arrived, and the store holds it with what arrived since. -/
  | answered {p : SyncPayload} {before late : List Step} (hfetch : f.fetch = .answered p before)
      (hearlier : earlier ⊆ p.timeline) (hlog : p.timeline <+: f.log)
      (harrived : f.arrived = before ++ late)
      (hholds : f.log.length ≤ f.host.engine.store.capacity →
        f.host.engine.store.Holds (Chronicle.ofList (p.timeline ++ late)))

/-- What holds of a feed at all times, if the backend had recorded some steps before the
connection. -/
structure Underway (settings : EngineSettings) (earlier : List Step) (f : Feed) : Prop where
  reachable : Engine.Reachable settings f.host.engine
  current : f.host.engine.generation = some f.generation
  made : f.number < f.host.asked
  ascending : f.log.Pairwise (fun a b => a.id < b.id)
  /-- What was recorded since has arrived or is in flight. -/
  pushed : f.log = earlier ++ f.arrived ++ f.inFlight.map (·.step)
  fetched : Fetched earlier f

/-- The log as a chronicle. -/
def Underway.chronicle (h : Underway settings earlier f) : Chronicle := ⟨f.log, h.ascending⟩

lemma Underway.nodup_log (h : Underway settings earlier f) : f.log.Nodup :=
  h.chronicle.nodup_steps

lemma Underway.mem_ofList (h : Underway settings earlier f) {l : List Step} (hl : l ⊆ f.log)
    {x : Step} : x ∈ (Chronicle.ofList l).steps ↔ x ∈ l :=
  Chronicle.mem_ofList fun _ ha _ hb hid =>
    Chronicle.eq_of_id_eq (c := h.chronicle) (hl ha) (hl hb) hid

lemma length_ofList_le {l m : List Step} (h : l ⊆ m) :
    (Chronicle.ofList l).steps.length ≤ m.length :=
  Chronicle.length_le_of_steps_subset fun _ hx => h (Chronicle.mem_of_mem_ofList hx)

/-- The steps of the payload and those that arrived after it are steps of the log. -/
lemma Underway.append_subset_log (h : Underway settings earlier f) {p : SyncPayload}
    {before late : List Step} (hlog : p.timeline <+: f.log)
    (harrived : f.arrived = before ++ late) :
    p.timeline ++ late ⊆ f.log := by
  refine List.append_subset.2 ⟨hlog.subset, fun x hx => ?_⟩
  rw [h.pushed, harrived]
  simp [hx]

/-- What arrived before the answer are steps of the log. -/
lemma Underway.before_subset_log (h : Underway settings earlier f) {p : SyncPayload}
    {before : List Step} (hanswered : f.fetch = .answered p before) : before ⊆ f.log := by
  cases h.fetched with
  | asked hfetch => exact absurd (hanswered.symm.trans hfetch) (by simp)
  | served hfetch => exact absurd (hanswered.symm.trans hfetch) (by simp)
  | answered hfetch hearlier hlog hsplit =>
    obtain ⟨rfl, rfl⟩ := Fetch.answered.inj (hanswered.symm.trans hfetch)
    intro x hx
    rw [h.pushed, hsplit]
    simp [hx]

/-! ## One event -/

/-- What the text of a pushed step does to the store. -/
lemma Underway.store_arrived (h : Underway settings earlier f) (push : Push) :
    (f.host.operate (.transport (.frame f.generation push.text))).engine.store =
      (f.host.engine.applyStep push.step).store := by
  have hframe : Engine.Operation.frame? f.host.engine.generation
      (.transport (.frame f.generation push.text)) = some (.event push.step) := by
    rw [Engine.Operation.frame?, if_pos h.current, push.spells]
    rfl
  obtain ⟨gate, hgate⟩ := Engine.perform_of_frame? hframe
  rw [Host.engine_operate, hgate]
  rfl

lemma holds_applyStep {e : Engine} {c : Chronicle} (h : e.store.Holds c)
    (hroom : c.steps.length ≤ e.store.capacity) (x : Step) :
    (e.applyStep x).store.Holds (c.note x) := by
  have hpast : e.store.isPast x.id = false := h.isPast_eq_false_of_room hroom x.id
  rw [Engine.store_applyStep hpast]
  exact (h.upsert hpast).advanceLive x.id

/-- The answer to the fetch replaces what the store holds. -/
lemma Underway.holds_answered (h : Underway settings earlier f)
    (hout : f.host.outstanding.get? f.number = some f.generation) (p : SyncPayload) :
    (f.host.react (.answered f.number (.ok p))).engine.store.Holds
      (Chronicle.ofList p.timeline) := by
  have hshown := Host.shown_react_answered h.reachable hout h.current p
  have hstore : (f.host.react (.answered f.number (.ok p))).engine.store =
      (Store.new settings.timelineCapacity settings.policy).replaceAll p.timeline p.cursor :=
    congrArg (·.1) hshown
  rw [hstore]
  exact (Store.Sound.new _ _).holds_replaceAll p.timeline p.cursor

/-- Recording a step keeps the invariant: the step is in flight. -/
lemma Underway.recorded (h : Underway settings earlier f) (push : Push) :
    Underway settings earlier (f.react (.recorded push)) := by
  unfold react
  dsimp only
  split
  · next hnew =>
    refine ⟨h.reachable, h.current, h.made, ?_, ?_, ?_⟩
    · refine List.pairwise_append.2 ⟨h.ascending, List.pairwise_singleton .., fun x hx y hy => ?_⟩
      rw [List.mem_singleton.1 hy]
      exact hnew x hx
    · show f.log ++ [push.step] = earlier ++ f.arrived ++ (f.inFlight ++ [push]).map (·.step)
      rw [h.pushed]
      simp
    -- what is a beginning of the log is one of the longer log too
    · have hmore {l : List Step} (hl : l <+: f.log) : l <+: f.log ++ [push.step] :=
        hl.trans (List.prefix_append ..)
      cases h.fetched with
      | asked hfetch hout => exact .asked hfetch hout
      | served hfetch hout hearlier hlog => exact .served hfetch hout hearlier (hmore hlog)
      | answered hfetch hearlier hlog harrived hholds =>
        refine .answered hfetch hearlier (hmore hlog) harrived fun hroom => hholds ?_
        have hlen : f.log.length ≤ (f.log ++ [push.step]).length := by simp
        exact hlen.trans hroom
  · exact h

/-- Serving the fetch keeps the invariant: the payload holds the whole log. -/
lemma Underway.served (h : Underway settings earlier f) (payload : SyncPayload) :
    Underway settings earlier (f.react (.served payload)) := by
  cases h.fetched with
  | asked hfetch hout =>
    have hearlier : earlier ⊆ f.log := by
      intro x hx
      rw [h.pushed]
      simp [hx]
    have hreact : f.react (.served payload) =
        { f with fetch := .served { payload with timeline := f.log } } := by
      rw [react, hfetch]
    rw [hreact]
    exact ⟨h.reachable, h.current, h.made, h.ascending, h.pushed,
      .served rfl hout hearlier (List.prefix_refl _)⟩
  | served hfetch => rwa [react, hfetch]
  | answered hfetch => rwa [react, hfetch]

/-- The arrival of a frame keeps the invariant: once the payload is there, the store has room for
the step, and the step becomes known. -/
lemma Underway.arrived (h : Underway settings earlier f) :
    Underway settings earlier (f.react .arrived) := by
  unfold react
  dsimp only
  split
  · exact h
  · next push rest hflight =>
    let op : Engine.Operation := .transport (.frame f.generation push.text)
    have hout : (f.host.operate op).outstanding.get? f.number =
        f.host.outstanding.get? f.number := Host.get?_operate f.host op h.made
    have hlog : f.log = earlier ++ (f.arrived ++ [push.step]) ++ rest.map (·.step) := by
      rw [h.pushed, hflight]
      simp
    refine ⟨?_, ?_, ?_, h.ascending, hlog, ?_⟩
    · exact Host.reachable_engine_run f.host [.happens op rfl] h.reachable
    · have hsame : ∀ event ∈ [Host.Event.happens op rfl], event.isConnect = false := by
        simp [op, Host.Event.isConnect]
      exact (Host.generation_run f.host hsame).trans h.current
    · exact h.made.trans_le (Host.asked_le_operate f.host op)
    · cases h.fetched with
      | asked hfetch hwaits => exact .asked hfetch (hout.trans hwaits)
      | served hfetch hwaits hearlier hrecorded =>
        exact .served hfetch (hout.trans hwaits) hearlier hrecorded
      | @answered p before late hfetch hearlier hrecorded harrived hholds =>
        -- the step came after the answer, so it is one more of the late ones
        have hlate : f.arrived ++ [push.step] = before ++ (late ++ [push.step]) := by
          rw [harrived, List.append_assoc]
        refine .answered hfetch hearlier hrecorded hlate fun hroom => ?_
        have hstore : (f.host.operate op).engine.store =
            (f.host.engine.applyStep push.step).store := h.store_arrived push
        have hcapacity : (f.host.operate op).engine.store.capacity =
            f.host.engine.store.capacity := by
          rw [Host.engine_operate, (h.reachable.perform op).capacity_eq, h.reachable.capacity_eq]
        have hroom : f.log.length ≤ f.host.engine.store.capacity := hroom.trans_eq hcapacity
        have hnoted : Chronicle.ofList (p.timeline ++ (late ++ [push.step])) =
            (Chronicle.ofList (p.timeline ++ late)).note push.step := by
          rw [← List.append_assoc, Chronicle.ofList, List.foldl_append]
          rfl
        show (f.host.operate op).engine.store.Holds _
        rw [hstore, hnoted]
        refine holds_applyStep (hholds hroom) ?_ push.step
        exact (length_ofList_le (h.append_subset_log hrecorded harrived)).trans hroom

/-- The arrival of the answer keeps the invariant: nothing has arrived since. -/
lemma Underway.answered (h : Underway settings earlier f) :
    Underway settings earlier (f.react .answered) := by
  cases h.fetched with
  | asked hfetch => rwa [react, hfetch]
  | answered hfetch => rwa [react, hfetch]
  | @served p hfetch hout hearlier hlog =>
    have hreact : f.react .answered =
        { f with
          host := f.host.react (.answered f.number (.ok p))
          fetch := .answered p f.arrived } := by
      rw [react, hfetch]
    rw [hreact]
    refine ⟨?_, ?_, ?_, h.ascending, h.pushed, ?_⟩
    · exact Host.reachable_engine_run f.host [.answered f.number (.ok p)] h.reachable
    · have hsame : ∀ event ∈ [Host.Event.answered f.number (.ok p)], event.isConnect = false := by
        simp [Host.Event.isConnect]
      exact (Host.generation_run f.host hsame).trans h.current
    · exact h.made.trans_le (Host.asked_le_react f.host (.answered f.number (.ok p)))
    · refine .answered rfl hearlier hlog (List.append_nil _).symm fun _ => ?_
      rw [List.append_nil]
      exact h.holds_answered hout p

/-! ## All events -/

/-- Every event keeps the invariant. -/
lemma Underway.react (h : Underway settings earlier f) (event : Event) :
    Underway settings earlier (f.react event) := by
  cases event with
  | recorded push => exact h.recorded push
  | served payload => exact h.served payload
  | arrived => exact h.arrived
  | answered => exact h.answered

lemma Underway.run (h : Underway settings earlier f) (events : List Event) :
    Underway settings earlier (f.run events) := by
  induction events generalizing f with
  | nil => exact h
  | cons event rest ih => exact ih (h.react event)

/-- The invariant holds of a new connection that leads to a fetch. -/
lemma underway_connect {h : Host} (hengine : Engine.Reachable settings h.engine) {generation : Nat}
    (hfetch : (h.engine.perform (.transport (.connected generation))).2 = [.fetchSync generation])
    (hlog : earlier.Pairwise (fun a b => a.id < b.id)) :
    Underway settings earlier (connect h generation earlier) := by
  let op : Engine.Operation := .transport (.connected generation)
  have hmem : .fetchSync generation ∈ (h.engine.perform op).2 := by
    rw [hfetch]
    exact List.mem_singleton.2 rfl
  have hhost : h.operate op = { h with engine := (h.engine.perform op).1 }.fetch generation := by
    show Host.ask { h with engine := (h.engine.perform op).1 } (h.engine.perform op).2 = _
    rw [hfetch]
    rfl
  refine ⟨?_, ?_, ?_, hlog, ?_, .asked rfl ?_⟩
  · exact Host.reachable_engine_run h [.happens op rfl] hengine
  · have hlink := hengine.linked.link_of_fetchSync hmem
    show (h.operate op).engine.generation = some generation
    rw [Host.engine_operate]
    exact congrArg (·.2) hlink
  · show h.asked < (h.operate op).asked
    rw [hhost]
    exact Nat.lt_succ_self _
  · simp [connect]
  · show (h.operate op).outstanding.get? h.asked = some generation
    rw [hhost]
    exact (OrderedMap.get?_insert ..).trans (if_pos rfl)

/-! ## What is retained -/

/-- Once everything has arrived, the time line holds the steps of the answer and those that arrived
after it, provided that the whole log fits. -/
lemma Underway.mem_steps_iff (h : Underway settings earlier f) {p : SyncPayload}
    {before : List Step} (hanswered : f.fetch = .answered p before) (harrived : f.inFlight = [])
    (hroom : f.log.length ≤ f.host.engine.store.capacity) {x : Step} :
    x ∈ f.host.engine.store.steps ↔ x ∈ f.log ∧ (x ∈ p.timeline ∨ x ∉ before) := by
  cases h.fetched with
  | asked hfetch => exact absurd (hanswered.symm.trans hfetch) (by simp)
  | served hfetch => exact absurd (hanswered.symm.trans hfetch) (by simp)
  | @answered p' before' late hfetch hearlier hlog hsplit hholds =>
    obtain ⟨rfl, rfl⟩ := Fetch.answered.inj (hanswered.symm.trans hfetch)
    have hsub : p.timeline ++ late ⊆ f.log := h.append_subset_log hlog hsplit
    have hfits := (length_ofList_le hsub).trans hroom
    have hwhole : f.log = earlier ++ (before ++ late) := by
      rw [h.pushed, harrived, hsplit, List.map_nil, List.append_nil]
    -- no step arrived both before and after the answer
    have hnodup : (before ++ late).Nodup := by
      have hall := h.nodup_log
      rw [hwhole] at hall
      exact (List.nodup_append.1 hall).2.1
    have hsteps : x ∈ f.host.engine.store.steps ↔ x ∈ p.timeline ∨ x ∈ late := by
      rw [← Array.mem_toList_iff, (hholds hroom).toList_steps hfits, h.mem_ofList hsub,
        List.mem_append]
    rw [hsteps]
    constructor
    · rintro (hx | hx)
      · exact ⟨hlog.subset hx, .inl hx⟩
      · refine ⟨hsub (List.mem_append_right _ hx), .inr fun hbefore => ?_⟩
        exact (List.nodup_append.1 hnodup).2.2 x hbefore x hx rfl
    · rintro ⟨hx, hkept⟩
      rw [hwhole, List.mem_append, List.mem_append] at hx
      rcases hkept with hpayload | hbefore
      · exact .inl hpayload
      -- recorded before the connection, arrived before the answer, or arrived after it
      · rcases hx with hx | hx | hx
        · exact .inl (hearlier hx)
        · exact absurd hx hbefore
        · exact .inr hx

/-- A connection leads to a fetch, the backend goes on recording and pushing steps, the fetch is
served with the log as it then stands, and pushed frames and the answer arrive, in any order of the
two.  Once everything has arrived, and provided that the log fits, the time line holds exactly the
steps of the log that are in the answer or arrived after it; so it holds the whole log if and only
if every step that arrived before the answer is in the answer. -/
theorem retained_iff {h : Host} (hengine : Engine.Reachable settings h.engine) {generation : Nat}
    (hfetch : (h.engine.perform (.transport (.connected generation))).2 = [.fetchSync generation])
    (hlog : earlier.Pairwise (fun a b => a.id < b.id)) (events : List Event) {p : SyncPayload}
    {before : List Step} :
    let f := (connect h generation earlier).run events
    f.fetch = .answered p before → f.inFlight = [] →
    f.log.length ≤ f.host.engine.store.capacity →
      (∀ x, x ∈ f.host.engine.store.steps ↔ x ∈ f.log ∧ (x ∈ p.timeline ∨ x ∉ before)) ∧
      ((∀ x ∈ f.log, x ∈ f.host.engine.store.steps) ↔ ∀ x ∈ before, x ∈ p.timeline) := by
  intro f hanswered harrived hroom
  have hf : Underway settings earlier f := (underway_connect hengine hfetch hlog).run events
  have hmem (x : Step) := hf.mem_steps_iff hanswered harrived hroom (x := x)
  refine ⟨hmem, fun hall x hx => ?_, fun hbefore x hx => ?_⟩
  · have hxlog : x ∈ f.log := hf.before_subset_log hanswered hx
    exact ((hmem x).1 (hall x hxlog)).2.resolve_right fun hnot => hnot hx
  · by_cases hpayload : x ∈ p.timeline
    · exact (hmem x).2 ⟨hx, .inl hpayload⟩
    · exact (hmem x).2 ⟨hx, .inr fun hxbefore => hpayload (hbefore x hxbefore)⟩

/-- A step that arrives before the fetch is served is in the answer, and one that is recorded after
that arrives after the answer: nothing is lost. -/
theorem retained_iff_answer_first :
    let first : Push := ⟨Step.ofLine 1 4,
      "\x7b\x22type\x22: \x22event\x22, \x22data\x22: " ++
        "\x7b\x22id\x22: 1, \x22event\x22: \x22line\x22, \x22line_number\x22: 4\x7d\x7d",
      by decide +kernel⟩
    let second : Push := ⟨Step.ofLine 2 5,
      "\x7b\x22type\x22: \x22event\x22, \x22data\x22: " ++
        "\x7b\x22id\x22: 2, \x22event\x22: \x22line\x22, \x22line_number\x22: 5\x7d\x7d",
      by decide +kernel⟩
    let f := (connect (Host.new ⟨8, .sticky, 8, 1000⟩) 1 []).run
      [.recorded first, .arrived, .served ⟨[], [], none, none⟩, .recorded second, .answered,
        .arrived]
    f.log = [Step.ofLine 1 4, Step.ofLine 2 5] ∧ ∀ x ∈ f.log, x ∈ f.host.engine.store.steps := by
  intro first second f
  have hengine : Engine.Reachable ⟨8, .sticky, 8, 1000⟩ (Host.new ⟨8, .sticky, 8, 1000⟩).engine :=
    ⟨[], rfl⟩
  have hfetched : f.fetch = .answered ⟨[], [Step.ofLine 1 4], none, none⟩ [Step.ofLine 1 4] := by
    decide +kernel
  have hfetch : ((Host.new ⟨8, .sticky, 8, 1000⟩).engine.perform (.transport (.connected 1))).2 =
      [.fetchSync 1] := by
    decide +kernel
  have hkept := retained_iff hengine hfetch .nil
    [.recorded first, .arrived, .served ⟨[], [], none, none⟩, .recorded second, .answered, .arrived]
    hfetched (by decide +kernel) (by decide +kernel)
  exact ⟨by decide +kernel, hkept.2.2 (by decide +kernel)⟩

/-- A step that is recorded after the fetch was served, and arrives before the answer, is dropped
when the answer takes the place of the time line, and nothing is left that would bring it back. -/
theorem early_push_is_dropped :
    let push : Push := ⟨Step.ofLine 1 1,
      "\x7b\x22type\x22: \x22event\x22, \x22data\x22: " ++
        "\x7b\x22id\x22: 1, \x22event\x22: \x22line\x22, \x22line_number\x22: 1\x7d\x7d",
      by decide +kernel⟩
    let h := Host.new ⟨8, .sticky, 8, 1000⟩
    let f := (connect h 1 []).run
      [.served ⟨[], [], none, none⟩, .recorded push, .arrived, .answered]
    (h.engine.perform (.transport (.connected 1))).2 = [.fetchSync 1] ∧
      f.fetch = .answered ⟨[], [], none, none⟩ [Step.ofLine 1 1] ∧ f.inFlight = [] ∧
      f.log = [Step.ofLine 1 1] ∧ f.log.length ≤ f.host.engine.store.capacity ∧
      f.host.engine.store.steps = #[] := by
  decide +kernel

end Feed

end TraceTimeline
