import Helm.Pilot.Leaf
import Helm.Proofs.Evaluation

/-!
# Helm.Proofs.Pilot.Recall

Leaves with a state over the ticks they go through. `Leaf.Ran` relates a leaf to its history, a list
of `Turn`s with the latest one first; between two turns anything may happen to the context. A wait
keeps a single time, which is that of its last success or of a restart, whichever was later
(`Wait.since?`), and this says as much as the whole history (`Wait.Recalls`, `Wait.wait_turns`).
-/

namespace Helm

/-- A tick of a leaf as its history keeps it. -/
structure Turn where
  context : Context
  status : Status
  deriving DecidableEq, Repr

/-- Ticked in one context after the other, whatever they are, the leaf has become the last one. -/
inductive Leaf.Ran (start : Leaf) : List Turn → Leaf → Prop where
  | fresh : Ran start [] start
  | turn {past : List Turn} {l next : Leaf} {c c' : Context} {status : Status} :
      Ran start past l → l.tick c = .ok (status, next, c') →
      Ran start (⟨c, status⟩ :: past) next

namespace Wait

/-! ## What there is to remember -/

/-- True for a turn that starts the wait anew: frames have passed since the one before it. -/
def restarts (reset : Bool) (past : List Turn) (c : Context) : Bool :=
  reset && past.head?.any fun last => last.context.memory.frame + 1 < c.memory.frame

/-- The time of the latest turn that succeeded or started the wait anew. -/
def since? (reset : Bool) : List Turn → Option Float32
  | [] => none
  | turn :: past =>
    if turn.status = .success ∨ restarts reset past turn.context = true then
      some turn.context.memory.time
    else since? reset past

/-- The time from which on a turn in this context waits. -/
def waitsFrom? (reset : Bool) (past : List Turn) (c : Context) : Option Float32 :=
  if restarts reset past c then some c.memory.time else since? reset past

/-- What a wait keeps of the history. -/
structure Recalls (cooldown : Float32) (reset : Bool) (past : List Turn) (w : Wait) : Prop where
  lastFrame : w.lastFrame = past.head?.map (·.context.memory.frame)
  lastCompletion : w.lastCompletion = since? reset past
  begun : past ≠ [] → w.lastCompletion ≠ none
  cooldown : w.cooldown = cooldown
  reset : w.resetIfInterrupted = reset

variable {cooldown : Float32} {reset : Bool} {past : List Turn} {w : Wait}

theorem Recalls.create (cooldown : Float32) (reset : Bool) :
    Recalls cooldown reset [] (.create cooldown reset) :=
  ⟨rfl, rfl, fun h => absurd rfl h, rfl, rfl⟩

theorem Recalls.interrupted_eq (h : Recalls cooldown reset past w) (c : Context) :
    (w.interrupted c.memory.frame && w.resetIfInterrupted) = restarts reset past c := by
  rw [interrupted, h.lastFrame, h.reset, restarts, Bool.and_comm, Option.any_map]

theorem ne_nil_of_restarts {c : Context} (h : restarts reset past c = true) : past ≠ [] := by
  rintro rfl
  simp [restarts] at h

/-- The wait counts from the time that the history gives. -/
theorem Recalls.reference_eq (h : Recalls cooldown reset past w) (c : Context) :
    w.reference c.memory.time c.memory.frame = waitsFrom? reset past c := by
  rw [reference, waitsFrom?, h.interrupted_eq]
  split
  · -- there has been a turn, and the first of all turns succeeds
    rename_i hrestarts
    have hbegun := h.begun (ne_nil_of_restarts hrestarts)
    obtain ⟨start, hstart⟩ := Option.ne_none_iff_exists'.mp hbegun
    rw [hstart, Option.map_some]
  · exact h.lastCompletion

theorem Recalls.waitsFrom?_ne_none (h : Recalls cooldown reset past w) (hpast : past ≠ [])
    (c : Context) : waitsFrom? reset past c ≠ none := by
  rw [waitsFrom?]
  split
  · nofun
  · rw [← h.lastCompletion]
    exact h.begun hpast

/-- Too little time has passed. -/
def Pending (cooldown : Float32) (reset : Bool) (past : List Turn) (c : Context) : Prop :=
  ∃ start, waitsFrom? reset past c = some start ∧ c.memory.time - start < cooldown

theorem Recalls.step_cases (h : Recalls cooldown reset past w) (c : Context) :
    Pending cooldown reset past c ∧ w.step c.memory.time c.memory.frame =
        (.running, { w with
          lastCompletion := waitsFrom? reset past c
          lastFrame := some c.memory.frame }) ∨
      ¬Pending cooldown reset past c ∧ w.step c.memory.time c.memory.frame =
        (.success, { w with
          lastCompletion := some c.memory.time
          lastFrame := some c.memory.frame }) := by
  have hpending : ((waitsFrom? reset past c).any fun start =>
      decide (c.memory.time - start < w.cooldown)) = true ↔ Pending cooldown reset past c := by
    rw [h.cooldown, Option.any_eq_true, Pending]
    simp
  rw [Wait.step, h.reference_eq c]
  by_cases hearly : Pending cooldown reset past c
  · exact .inl ⟨hearly, if_pos (hpending.mpr hearly)⟩
  · exact .inr ⟨hearly, if_neg (mt hpending.mp hearly)⟩

theorem Recalls.step (h : Recalls cooldown reset past w) {c : Context} {status : Status}
    {next : Wait} (hstep : w.step c.memory.time c.memory.frame = (status, next)) :
    Recalls cooldown reset (⟨c, status⟩ :: past) next := by
  rcases h.step_cases c with ⟨hpending, heq⟩ | ⟨-, heq⟩
  · rw [heq] at hstep
    cases hstep
    obtain ⟨start, hstart, -⟩ := hpending
    refine ⟨rfl, ?_, fun _ => ?_, h.cooldown, h.reset⟩
    · simp [since?, waitsFrom?]
    · rw [hstart]
      nofun
  · rw [heq] at hstep
    cases hstep
    refine ⟨rfl, ?_, fun _ => nofun, h.cooldown, h.reset⟩
    simp [since?]

theorem recalls_of_ran {l : Leaf} (h : Leaf.Ran (.wait (.create cooldown reset)) past l) :
    ∃ w, l = .wait w ∧ Recalls cooldown reset past w := by
  induction h with
  | fresh => exact ⟨_, rfl, .create cooldown reset⟩
  | turn _ htick ih =>
    obtain ⟨w, rfl, hrecalls⟩ := ih
    cases htick
    exact ⟨_, rfl, hrecalls.step rfl⟩

/-- Without restarts, what counts is the latest success. -/
theorem waitsFrom?_false (past : List Turn) (c : Context) :
    waitsFrom? false past c =
      (past.find? (·.status = .success)).map (·.context.memory.time) := by
  have hnone : ∀ (past : List Turn) c, restarts false past c = false := fun _ _ => rfl
  rw [waitsFrom?, hnone, if_neg Bool.false_ne_true]
  induction past with
  | nil => rfl
  | cons turn past ih =>
    rw [since?, hnone, ih, List.find?_cons]
    by_cases hsuccess : turn.status = .success <;> simp [hsuccess]

/-- After any history a tick gives a status and leaves the context alone. The first one succeeds,
and a later one succeeds unless too little time has passed since the latest turn that succeeded or,
where asked, that followed a gap. So without restarts a success comes no sooner than the cooldown
after the one before it. -/
theorem wait_turns (cooldown : Float32) (reset : Bool) {past : List Turn} {l : Leaf}
    (h : Leaf.Ran (.wait (.create cooldown reset)) past l) (c : Context) :
    ∃ status next, l.tick c = .ok (status, next, c) ∧
      (past = [] → status = .success) ∧
      (past ≠ [] → ∃ start, waitsFrom? reset past c = some start ∧
        (status = .success ↔ ¬c.memory.time - start < cooldown) ∧
        (status = .running ↔ c.memory.time - start < cooldown)) ∧
      (reset = false → status = .success →
        ∀ last, past.find? (·.status = .success) = some last →
          ¬c.memory.time - last.context.memory.time < cooldown) := by
  obtain ⟨w, rfl, hrecalls⟩ := recalls_of_ran h
  obtain ⟨status, next, hstep, hstatus⟩ : ∃ status next,
      w.step c.memory.time c.memory.frame = (status, next) ∧
        (status = .running ∧ Pending cooldown reset past c ∨
          status = .success ∧ ¬Pending cooldown reset past c) := by
    rcases hrecalls.step_cases c with ⟨hpending, hstep⟩ | ⟨hdue, hstep⟩
    · exact ⟨_, _, hstep, .inl ⟨rfl, hpending⟩⟩
    · exact ⟨_, _, hstep, .inr ⟨rfl, hdue⟩⟩
  have hpending : ∀ start, waitsFrom? reset past c = some start →
      (Pending cooldown reset past c ↔ c.memory.time - start < cooldown) := by
    intro start hstart
    simp [Pending, hstart]
  refine ⟨status, .wait next, ?_, ?_, fun hpast => ?_, ?_⟩
  · rw [Leaf.tick, hstep]
  · rintro rfl
    rcases hstatus with ⟨-, start, hstart, -⟩ | ⟨hsuccess, -⟩
    · simp [waitsFrom?, restarts, since?] at hstart
    · exact hsuccess
  · obtain ⟨start, hstart⟩ :=
      Option.ne_none_iff_exists'.mp (hrecalls.waitsFrom?_ne_none hpast c)
    rw [hpending start hstart] at hstatus
    rcases hstatus with ⟨rfl, hearly⟩ | ⟨rfl, hlate⟩
    · exact ⟨start, hstart, by simp [hearly], by simp [hearly]⟩
    · exact ⟨start, hstart, by simp [hlate], by simp [hlate]⟩
  · rintro rfl rfl last hlast
    have hstart : waitsFrom? false past c = some last.context.memory.time := by
      rw [waitsFrom?_false, hlast, Option.map_some]
    simpa [hpending _ hstart] using hstatus

/-- More than two seconds after a success a wait of a second is still running: three frames went by
without it, and it started anew after them. -/
theorem wait_turns_restarted :
    let first := (Context.create ⟨1⟩ {} {} (Dice.forShip 0 1 .runtime)).advance 0
    let second := ((first.advance 0.5).advance 0.5).advance 0.5
    let third := second.advance 0.75
    ∃ l next, Leaf.Ran (.wait (.create 1 true))
        [⟨second, .running⟩, ⟨first, .success⟩] l ∧
      l.tick third = .ok (.running, next, third) := by
  intro first second third
  have hfirst : Leaf.Ran (.wait (.create 1 true)) [⟨first, .success⟩]
      (.wait ⟨1, true, some first.memory.time, some 1⟩) := .turn .fresh rfl
  obtain ⟨status, l, hsecond, -, hlater, -⟩ := wait_turns 1 true hfirst second
  obtain ⟨start, hstart, -, hrunning⟩ := hlater (List.cons_ne_nil _ _)
  have hrestart : waitsFrom? true [⟨first, .success⟩] second = some 1.5 := by
    decide +kernel
  obtain rfl : start = 1.5 := Option.some.inj (hstart.symm.trans hrestart)
  obtain rfl := hrunning.mpr (by decide +kernel)
  have hran := hfirst.turn hsecond
  obtain ⟨status, next, hthird, -, hlater, -⟩ := wait_turns 1 true hran third
  obtain ⟨start, hstart, -, hrunning⟩ := hlater (List.cons_ne_nil _ _)
  have hkept : waitsFrom? true [⟨second, .running⟩, ⟨first, .success⟩] third =
      some 1.5 := by
    decide +kernel
  obtain rfl : start = 1.5 := Option.some.inj (hstart.symm.trans hkept)
  obtain rfl := hrunning.mpr (by decide +kernel)
  exact ⟨l, next, hran, hthird⟩

end Wait

end Helm
