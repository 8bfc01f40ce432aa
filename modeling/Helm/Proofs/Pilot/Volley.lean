import Helm.Proofs.Pilot.Aim
import Helm.Proofs.Pilot.Orders
import Helm.Proofs.Tree.Parallel

/-!
# Helm.Proofs.Pilot.Volley

Leaves that fire, hold weapons or turn devices on. None of them looks at the controls before it
gives its orders: what it does is a `Volley` that the rest of the context decides, up to the error
of aim that an attack may have to draw, and attacks of one level that have to draw do the same
(`Context.exists_volleys`). So a parallel node with such leaves and no other children may have them
in any order (`tick_parallel_perm`). They give the same volleys then (`salvo_perm`), and the volleys
leave the same controls, but for the course, which the last one to turn the ship decides. Other
children among them spoil this (`tick_parallel_order`).
-/

namespace Helm

/-- What a leaf does to the controls, with its status and its next state. -/
structure Volley where
  status : Status
  next : Leaf
  course : Option Float32 := none
  fullThrust : Bool := false
  orders : List Order := []
  deriving DecidableEq, Repr

namespace Volley

/-- Turns the ship and sets the thrust. -/
def head (c : Controls) (v : Volley) : Controls :=
  { c with
    course := v.course.or c.course
    thrust := if v.fullThrust then Scalar.clamp 0 1 1 else c.thrust }

/-- Turns the ship, and then carries the orders out. -/
def carryOut (c : Controls) (v : Volley) : Controls := v.orders.foldl Controls.obey (head c v)

end Volley

/-- The context with another random source and other controls. -/
def Context.holding (c : Context) (dice : Dice) (controls : Controls) : Context :=
  c.remember fun m => { m with dice := dice, controls := controls }

namespace Leaf

/-- The leaf gives orders to slots. An attack is of the given level. -/
def Wields (level : Level) : Leaf → Prop
  | attack a => a.level = level
  | action (.chargeWeapons _) => True
  | action (.useRecoil _) => True
  | action (.ram _) => True
  | action (.activateDevice _) => True
  | action (.defendWithFrontalShield _) => True
  | _ => False

/-- The leaf may turn the ship as well. -/
def turns : Leaf → Bool
  | action (.chargeWeapons _) => false
  | action (.activateDevice _) => false
  | _ => true

theorem turns_attack (a : Attack) : (attack a).turns ≠ false := Bool.false_ne_true.symm

/-- With any random source and any controls the leaf gives the volley, and leaves the source. -/
structure Volleys (l : Leaf) (c : Context) (fire : Dice → Volley × Dice) : Prop where
  tick : ∀ dice controls, l.tick (c.holding dice controls) =
    .ok ((fire dice).1.status, (fire dice).1.next,
      c.holding (fire dice).2 ((fire dice).1.carryOut controls))
  forSlot : ∀ dice, ∀ order ∈ (fire dice).1.orders, order.forSlot = true
  straight : l.turns = false → ∀ dice, (fire dice).1.course = none ∧ (fire dice).2 = dice

/-- Nothing is drawn, and so the volley is the same with every random source. -/
def Steady (fire : Dice → Volley × Dice) : Prop := ∃ v, ∀ dice, fire dice = (v, dice)

variable {level : Level} {l : Leaf} {c : Context}

theorem volleys_steady {v : Volley} (hforSlot : ∀ order ∈ v.orders, order.forSlot = true)
    (hstraight : l.turns = false → v.course = none)
    (htick : ∀ dice controls, l.tick (c.holding dice controls) =
      .ok (v.status, v.next, c.holding dice (v.carryOut controls))) :
    l.Volleys c fun dice => (v, dice) :=
  ⟨htick, fun _ => hforSlot, fun hl _ => ⟨hstraight hl, rfl⟩⟩

theorem volleys_failing (htick : ∀ dice controls, l.tick (c.holding dice controls) =
    .ok (.failure, l, c.holding dice controls)) :
    l.Volleys c fun dice => ({ status := .failure, next := l }, dice) :=
  volleys_steady (fun _ h => absurd h List.not_mem_nil) (fun _ => rfl) htick

end Leaf

/-! ## Attacks -/

theorem Context.randomRange_holding (c : Context) (dice : Dice) (controls : Controls)
    (lo hi : Float32) : (c.holding dice controls).randomRange lo hi =
      (Dice.inRange lo hi dice).map fun r => (r.1, c.holding r.2 controls) := by
  rw [randomRange, Dice.inRange, Dice.inRange, Draw.between, Draw.between]
  split
  · rfl
  · split
    · rfl
    · dsimp only
      split <;> rfl

namespace Attack

variable {level : Level} {c : Context} {me target : ShipState}

/-- What an attack does that has an aim. -/
def volley (level : Level) (c : Context) (me target : ShipState) (aim : Aim) : Volley :=
  let course := leadCourse c me target + aim.offset
  let error := (deltaAngle me.rotation course).abs
  let ready := (reaching c (me.gapTo target)).filter (mayFire level error)
  { status := .success
    next := .attack ⟨level, some aim⟩
    course := some course
    orders := if c.memory.time - aim.since < level.reactionTime then []
      else ready.slots.map .fire }

theorem tick_of_aim {a : Attack} {aim : Aim} {dice dice' : Dice} {controls : Controls}
    (h : Engages c me target)
    (haim : a.takeAim (c.holding dice controls) target.id = .ok (aim, c.holding dice' controls)) :
    (Leaf.attack a).tick (c.holding dice controls) =
      .ok (.success, .attack ⟨a.level, some aim⟩,
        c.holding dice' ((volley a.level c me target aim).carryOut controls)) := by
  have hduel : (c.holding dice controls).duel? = some (me, target) := h.1
  have hreach : reaching (c.holding dice controls) (me.gapTo target) =
      reaching c (me.gapTo target) := rfl
  rw [Leaf.tick, tick, hduel]
  dsimp only
  rw [hreach, isEmpty_reaching h, if_neg Bool.false_ne_true, haim, ok_bind]
  dsimp only
  rw [Volley.carryOut, volley]
  dsimp only
  split
  · rename_i hearly
    have hearly : c.memory.time - aim.since < a.level.reactionTime := hearly
    rw [if_pos hearly]
    rfl
  · rename_i hlate
    have hlate : ¬c.memory.time - aim.since < a.level.reactionTime := hlate
    rw [if_neg hlate, List.foldl_map]
    rfl

theorem forSlot_volley (level : Level) (c : Context) (me target : ShipState) (aim : Aim) :
    ∀ order ∈ (volley level c me target aim).orders, order.forSlot = true := by
  intro order horder
  rw [volley] at horder
  dsimp only at horder
  split at horder
  · cases horder
  · obtain ⟨slot, -, rfl⟩ := List.mem_map.mp horder
    rfl

/-- An attack that has aimed at its target before draws nothing. -/
theorem volleys_of_aim {a : Attack} {aim : Aim} (h : Engages c me target)
    (haim : a.aimAt? target.id = some aim) :
    (Leaf.attack a).Volleys c fun dice => (volley a.level c me target aim, dice) := by
  refine Leaf.volleys_steady (forSlot_volley a.level c me target aim)
    (fun hturns => absurd hturns (Leaf.turns_attack a)) fun dice controls => tick_of_aim h ?_
  rw [takeAim, haim]

/-- Attacks of one level that have to draw their aim do the same, whatever they aimed at before. -/
theorem exists_fresh (level : Level) (c : Context) :
    ∃ fresh, ∀ a : Attack, a.level = level →
      ∃ fire, (Leaf.attack a).Volleys c fire ∧ (Leaf.Steady fire ∨ fire = fresh) := by
  by_cases hengages : ∃ me target, Engages c me target
  · obtain ⟨me, target, hengages⟩ := hengages
    have hdraws : ∀ dice : Dice, ∃ r,
        Dice.inRange (-level.aimError) level.aimError dice = .ok r := by
      intro dice
      have hyields := (Dice.inRange_yields (-level.aimError) level.aimError dice).weaken
        fun _ h => h.2 (drawable_aimError level)
      obtain ⟨r, hr, -⟩ := yields_false_iff.mp hyields
      exact ⟨r, hr⟩
    choose drawn hdrawn using hdraws
    let aim (dice : Dice) : Aim := ⟨target.id, (drawn dice).1, c.memory.time⟩
    refine ⟨fun dice => (volley level c me target (aim dice), (drawn dice).2), ?_⟩
    rintro a rfl
    cases haim : a.aimAt? target.id with
    | some kept => exact ⟨_, volleys_of_aim hengages haim, .inl ⟨_, fun _ => rfl⟩⟩
    | none =>
      refine ⟨_, ⟨fun dice controls => tick_of_aim hengages ?_, fun dice => ?_,
        fun hturns => absurd hturns (Leaf.turns_attack a)⟩, .inr rfl⟩
      · rw [takeAim, haim]
        dsimp only
        rw [c.randomRange_holding, hdrawn]
        rfl
      · exact forSlot_volley a.level c me target _
  · simp only [not_exists] at hengages
    refine ⟨fun dice => (⟨.failure, .attack ⟨level, none⟩, none, false, []⟩, dice), ?_⟩
    rintro a rfl
    refine ⟨_, Leaf.volleys_failing fun dice controls => ?_, .inl ⟨_, fun _ => rfl⟩⟩
    have hidle : ∀ me target, ¬Engages (c.holding dice controls) me target := hengages
    rw [Leaf.tick, tick_of_idle a hidle]
    rfl

end Attack

/-! ## Actions -/

namespace Action

variable {c : Context} {a : Action}

/-- What is done gives a volley for the action, with any random source and any controls. -/
def Volleys (a : Action) (c : Context) (act : Context → Status × Context) : Prop :=
  ∃ v : Volley, v.next = .action a ∧ (∀ order ∈ v.orders, order.forSlot = true) ∧
    ((Leaf.action a).turns = false → v.course = none) ∧
    ∀ dice controls, act (c.holding dice controls) =
      (v.status, c.holding dice (v.carryOut controls))

theorem volleys_failure (a : Action) (c : Context) : a.Volleys c fun c => (.failure, c) :=
  ⟨⟨.failure, .action a, none, false, []⟩, rfl, fun _ h => absurd h List.not_mem_nil, fun _ => rfl,
    fun _ _ => rfl⟩

theorem volleys_orders {α : Type} (course : Option Float32) (fullThrust : Bool) (order : α → Order)
    (items : List α) (hforSlot : ∀ item, (order item).forSlot = true)
    (hstraight : (Leaf.action a).turns = false → course = none) :
    a.Volleys c fun c => (.success, c.command fun controls =>
      items.foldl (fun controls item => controls.obey (order item))
        (Volley.head controls ⟨.success, .action a, course, fullThrust, []⟩)) := by
  refine ⟨⟨.success, .action a, course, fullThrust, items.map order⟩, rfl,
    List.forall_mem_map.mpr fun item _ => hforSlot item, hstraight, fun dice controls => ?_⟩
  rw [Volley.carryOut, List.foldl_map]
  rfl

theorem Volleys.congr {act act' : Context → Status × Context} (h : a.Volleys c act)
    (heq : ∀ dice controls, act' (c.holding dice controls) = act (c.holding dice controls)) :
    a.Volleys c act' := by
  obtain ⟨v, hnext, hforSlot, hstraight, htick⟩ := h
  exact ⟨v, hnext, hforSlot, hstraight, fun dice controls => (heq _ _).trans (htick _ _)⟩

/-- An action that needs the ship and its target fails without them. -/
theorem volleys_of_duel {act : ShipState → ShipState → Context → Status × Context}
    (h : ∀ me target, a.Volleys c (act me target)) :
    a.Volleys c fun c => match c.duel? with
      | none => (.failure, c)
      | some (me, target) => act me target c := by
  have hsame : ∀ dice controls, (c.holding dice controls).duel? = c.duel? := fun _ _ => rfl
  cases hduel : c.duel? with
  | none =>
    refine (volleys_failure a c).congr fun dice controls => ?_
    simp only [hsame, hduel]
  | some pair =>
    refine (h pair.1 pair.2).congr fun dice controls => ?_
    simp only [hsame, hduel]

theorem volleys_perform {level : Level} (ha : (Leaf.action a).Wields level) (c : Context) :
    a.Volleys c a.perform := by
  cases a with
  | chargeWeapons weapons =>
    refine volleys_of_duel fun me target => ?_
    let order (weapon : Weapon) : Order :=
      if me.gapTo target ≤ weapon.range then .fire weapon.slot else .charge weapon.slot
    have horder : ∀ weapon, (order weapon).forSlot = true := by
      intro weapon
      simp only [order]
      split <;> rfl
    have hobey : ∀ (controls : Controls) weapon, controls.obey (order weapon) =
        if me.gapTo target ≤ weapon.range then controls.fire weapon.slot
        else controls.charge weapon.slot := by
      intro controls weapon
      simp only [order]
      split <;> rfl
    have hvolleys := volleys_orders (a := .chargeWeapons weapons) (c := c) none false order
      weapons.weapons horder fun _ => rfl
    simp only [hobey] at hvolleys
    exact hvolleys
  | useRecoil weapons =>
    refine volleys_of_duel fun me target => ?_
    by_cases hfar : c.memory.arsenal.rangeMin ≤ me.gapTo target
    · exact (volleys_failure _ c).congr fun _ _ => if_pos hfar
    · have hvolleys := volleys_orders (a := .useRecoil weapons) (c := c)
        (some (headingTo me.position target.position)) false .fire weapons.slots
        (fun _ => rfl) nofun
      exact hvolleys.congr fun _ _ => if_neg hfar
  | ram accelerators =>
    exact volleys_of_duel fun me target =>
      volleys_orders (some (headingTo me.position target.position)) true .activate accelerators
        (fun _ => rfl) nofun
  | activateDevice slots =>
    exact volleys_orders none false .activate slots (fun _ => rfl) fun _ => rfl
  | defendWithFrontalShield slots =>
    have hown : ∀ dice controls, (c.holding dice controls).own? = c.own? := fun _ _ => rfl
    have hthreats : ∀ dice controls, (c.holding dice controls).memory.threats = c.memory.threats :=
      fun _ _ => rfl
    by_cases hlater : Perform.shieldReactionTime < c.timeToCollision
    · exact (volleys_failure _ c).congr fun _ _ => if_pos hlater
    · cases hme : c.own? with
      | none =>
        refine (volleys_failure _ c).congr fun dice controls => (if_neg hlater).trans ?_
        simp only [hown, hme]
      | some me =>
        cases hlist : c.memory.threats with
        | nil =>
          refine (volleys_failure _ c).congr fun dice controls => (if_neg hlater).trans ?_
          simp only [hown, hme, hthreats, hlist]
        | cons threat others =>
          have hvolleys := volleys_orders (a := .defendWithFrontalShield slots) (c := c)
            (some (threat.position - me.position).heading) false .activate slots
            (fun _ => rfl) nofun
          refine hvolleys.congr fun dice controls => (if_neg hlater).trans ?_
          simp only [hown, hme, hthreats, hlist]
          rfl
  | _ => cases ha

theorem exists_volley {level : Level} (ha : (Leaf.action a).Wields level) (c : Context) :
    ∃ v, (Leaf.action a).Volleys c fun dice => (v, dice) := by
  obtain ⟨v, hnext, hforSlot, hstraight, hperform⟩ := volleys_perform ha c
  refine ⟨v, Leaf.volleys_steady hforSlot hstraight fun dice controls => ?_⟩
  rw [Leaf.tick, hperform, hnext]

theorem volleys_useRecoil {me target : ShipState} (weapons : Arsenal)
    (h : c.duel? = some (me, target)) (hnear : ¬c.memory.arsenal.rangeMin ≤ me.gapTo target) :
    (Leaf.action (.useRecoil weapons)).Volleys c fun dice =>
      (⟨.success, .action (.useRecoil weapons), some (headingTo me.position target.position), false,
        weapons.slots.map .fire⟩, dice) := by
  refine Leaf.volleys_steady (List.forall_mem_map.mpr fun _ _ => rfl) nofun fun dice controls => ?_
  have hduel : (c.holding dice controls).duel? = some (me, target) := h
  have hclose : ¬(c.holding dice controls).memory.arsenal.rangeMin ≤ me.gapTo target := hnear
  rw [Leaf.tick, perform, Perform.useRecoil, hduel]
  simp only [if_neg hclose]
  rw [Volley.carryOut, List.foldl_map]
  rfl

end Action

/-- Attacks of one level that have to draw do the same; the other leaves draw nothing. -/
theorem Context.exists_volleys (level : Level) (c : Context) :
    ∃ fresh, ∀ l : Leaf, l.Wields level →
      ∃ fire, l.Volleys c fire ∧ (Leaf.Steady fire ∨ fire = fresh) := by
  obtain ⟨fresh, hfresh⟩ := Attack.exists_fresh level c
  refine ⟨fresh, fun l hl => ?_⟩
  cases l with
  | attack a => exact hfresh a hl
  | action a =>
    obtain ⟨v, hv⟩ := Action.exists_volley hl c
    exact ⟨_, hv, .inl ⟨v, fun _ => rfl⟩⟩
  | _ => cases hl

/-! ## Salvos -/

/-- The volleys of several leaves, one after the other. -/
def salvo : List (Dice → Volley × Dice) → Dice → List Volley × Dice
  | [], dice => ([], dice)
  | fire :: rest, dice =>
    let (volley, dice) := fire dice
    let (volleys, dice) := salvo rest dice
    (volley :: volleys, dice)

section Salvo

variable {c : Context} {leaves leaves' : List Leaf} {fire : Leaf → Dice → Volley × Dice}
  {fires fires' : List (Dice → Volley × Dice)} {volleys volleys' : List Volley}

theorem inTurn_salvo (h : ∀ l ∈ leaves, l.Volleys c (fire l)) (dice : Dice) (controls : Controls) :
    Node.InTurn (leaves.map Node.leaf) (c.holding dice controls)
      ((salvo (leaves.map fire) dice).1.map (·.status))
      ((salvo (leaves.map fire) dice).1.map (.leaf ·.next))
      (c.holding (salvo (leaves.map fire) dice).2
        ((salvo (leaves.map fire) dice).1.foldl Volley.carryOut controls)) := by
  induction leaves generalizing dice controls with
  | nil => exact .nil _
  | cons l rest ih =>
    obtain ⟨hl, hrest⟩ := List.forall_mem_cons.mp h
    have htick : Behavior.tick l (c.holding dice controls) = _ := hl.tick dice controls
    refine .cons ?_ (ih hrest _ _)
    rw [Node.tick, htick]
    rfl

/-- Whoever of those that have to draw comes first draws the first number. -/
theorem salvo_perm {fresh : Dice → Volley × Dice}
    (h : ∀ fire ∈ fires, Leaf.Steady fire ∨ fire = fresh) (hperm : fires.Perm fires')
    (dice : Dice) : (salvo fires dice).1.Perm (salvo fires' dice).1 ∧
      (salvo fires dice).2 = (salvo fires' dice).2 := by
  induction hperm generalizing dice with
  | nil => exact ⟨.refl _, rfl⟩
  | cons fire _ ih =>
    obtain ⟨hvolleys, hdice⟩ := ih (List.forall_mem_cons.mp h).2 (fire dice).2
    exact ⟨hvolleys.cons _, hdice⟩
  | swap first second rest =>
    obtain ⟨hsecond, hrest⟩ := List.forall_mem_cons.mp h
    obtain ⟨hfirst, -⟩ := List.forall_mem_cons.mp hrest
    have hswap : ∀ first second : Dice → Volley × Dice, Leaf.Steady first →
        salvo (second :: first :: rest) dice =
            ((second dice).1 :: (first dice).1 :: (salvo rest (second dice).2).1,
              (salvo rest (second dice).2).2) ∧
          salvo (first :: second :: rest) dice =
            ((first dice).1 :: (second dice).1 :: (salvo rest (second dice).2).1,
              (salvo rest (second dice).2).2) := by
      rintro first second ⟨v, hv⟩
      constructor <;> simp only [salvo, hv]
    rcases hfirst with hsteady | hfirst
    · obtain ⟨hlast, hhead⟩ := hswap first second hsteady
      rw [hlast, hhead]
      exact ⟨.swap _ _ _, rfl⟩
    · rcases hsecond with hsteady | hsecond
      · obtain ⟨hlast, hhead⟩ := hswap second first hsteady
        rw [hlast, hhead]
        exact ⟨.swap _ _ _, rfl⟩
      · rw [hfirst, hsecond]
        exact ⟨.refl _, rfl⟩
  | trans hperm _ ih ih' =>
    obtain ⟨hvolleys, hdice⟩ := ih h dice
    obtain ⟨hvolleys', hdice'⟩ := ih' (fun fire hfire => h fire (hperm.mem_iff.mpr hfire)) dice
    exact ⟨hvolleys.trans hvolleys', hdice.trans hdice'⟩

/-! ## What salvos leave -/

theorem Controls.course_obey (c : Controls) (order : Order) (h : order.forSlot = true) :
    (c.obey order).course = c.course := by
  cases order with
  | beginTick => cases h
  | steer course thrust => cases h
  | charge slot => rcases charge_cases c slot with heq | heq <;> simp [obey, heq]
  | _ => rfl

theorem Volley.course_carryOut {v : Volley} (h : ∀ order ∈ v.orders, order.forSlot = true)
    (c : Controls) : (v.carryOut c).course = v.course.or c.course :=
  List.foldlRecOn (motive := fun after => after.course = v.course.or c.course) v.orders
    Controls.obey rfl fun after hafter order horder =>
      (after.course_obey order (h order horder)).trans hafter

/-- The controls without a course. -/
def Controls.unturned (c : Controls) : Controls := { c with course := none }

/-- Orders to slots may be given before or after anything that they have nothing to do with. -/
theorem Controls.foldl_obey_comm {f : Controls → Controls}
    (hf : ∀ (c : Controls) (order : Order), order.forSlot = true →
      f (c.obey order) = (f c).obey order)
    {orders : List Order} (h : ∀ order ∈ orders, order.forSlot = true) (c : Controls) :
    f (orders.foldl obey c) = orders.foldl obey (f c) := by
  induction orders generalizing c with
  | nil => rfl
  | cons order rest ih =>
    obtain ⟨horder, hrest⟩ := List.forall_mem_cons.mp h
    rw [List.foldl_cons, ih hrest, hf c order horder, List.foldl_cons]

theorem Controls.unturned_obey (c : Controls) (order : Order) (h : order.forSlot = true) :
    (c.obey order).unturned = c.unturned.obey order := by
  cases order with
  | beginTick => cases h
  | steer course thrust => cases h
  | charge slot => by_cases hfiring : c.firing.contains slot = true <;>
      simp [obey, charge, unturned, hfiring]
  | _ => rfl

theorem Volley.head_obey (v : Volley) (c : Controls) (order : Order) (h : order.forSlot = true) :
    head (c.obey order) v = (head c v).obey order := by
  cases order with
  | beginTick => cases h
  | steer course thrust => cases h
  | charge slot => by_cases hfiring : c.firing.contains slot = true <;>
      simp [Controls.obey, Controls.charge, head, hfiring]
  | _ => rfl

theorem foldl_head_obey (volleys : List Volley) (c : Controls) (order : Order)
    (h : order.forSlot = true) :
    volleys.foldl Volley.head (c.obey order) = (volleys.foldl Volley.head c).obey order := by
  induction volleys generalizing c with
  | nil => rfl
  | cons v rest ih => rw [List.foldl_cons, v.head_obey c order h, ih, List.foldl_cons]

/-- The ship may as well do all of the turning before it carries out any order. -/
theorem foldl_carryOut (h : ∀ v ∈ volleys, ∀ order ∈ v.orders, order.forSlot = true)
    (c : Controls) : volleys.foldl Volley.carryOut c =
      (volleys.flatMap (·.orders)).foldl Controls.obey (volleys.foldl Volley.head c) := by
  induction volleys generalizing c with
  | nil => rfl
  | cons v rest ih =>
    obtain ⟨hv, hrest⟩ := List.forall_mem_cons.mp h
    have hlater : rest.foldl Volley.head (v.orders.foldl Controls.obey (v.head c)) =
        v.orders.foldl Controls.obey (rest.foldl Volley.head (v.head c)) :=
      Controls.foldl_obey_comm (f := rest.foldl Volley.head) (foldl_head_obey rest) hv _
    rw [List.foldl_cons, ih hrest, Volley.carryOut, hlater, List.flatMap_cons, List.foldl_append,
      List.foldl_cons]

theorem foldl_head (volleys : List Volley) (c : Controls) :
    volleys.foldl Volley.head c = { c with
      course := volleys.foldl (fun course v => v.course.or course) c.course
      thrust := if volleys.any (·.fullThrust) then Scalar.clamp 0 1 1 else c.thrust } := by
  induction volleys generalizing c with
  | nil => rfl
  | cons v rest ih =>
    rw [List.foldl_cons, ih]
    cases hfull : v.fullThrust <;> simp [Volley.head, hfull]

/-- Volleys that turn the ship alike leave the same controls in any order. -/
theorem agrees_volleys (hperm : volleys.Perm volleys')
    (h : ∀ v ∈ volleys, ∀ order ∈ v.orders, order.forSlot = true) (c : Controls) :
    (volleys.foldl Volley.carryOut c).unturned.Agrees
        (volleys'.foldl Volley.carryOut c).unturned ∧
      (volleys.foldl (fun course v => v.course.or course) c.course =
          volleys'.foldl (fun course v => v.course.or course) c.course →
        (volleys.foldl Volley.carryOut c).Agrees (volleys'.foldl Volley.carryOut c)) := by
  have h' : ∀ v ∈ volleys', ∀ order ∈ v.orders, order.forSlot = true :=
    fun v hv => h v (hperm.mem_iff.mpr hv)
  have hforSlot : ∀ order ∈ volleys.flatMap (·.orders), order.forSlot = true := by
    intro order horder
    obtain ⟨v, hv, horder⟩ := List.mem_flatMap.mp horder
    exact h v hv order horder
  have horders := hperm.flatMap_right (·.orders)
  have hforSlot' : ∀ order ∈ volleys'.flatMap (·.orders), order.forSlot = true :=
    fun order horder => hforSlot order (horders.mem_iff.mpr horder)
  have hnone : ∀ {orders : List Order}, (∀ order ∈ orders, order.forSlot = true) →
      orders.filter (!·.forSlot) = [] := by
    intro orders hall
    simpa [List.filter_eq_nil_iff] using hall
  have htick : .beginTick ∉ volleys.flatMap (·.orders) := fun hmem => nomatch hforSlot _ hmem
  have hothers := (hnone hforSlot).trans (hnone hforSlot').symm
  have hagrees : ∀ {start start' : Controls}, start = start' →
      ((volleys.flatMap (·.orders)).foldl Controls.obey start).Agrees
        ((volleys'.flatMap (·.orders)).foldl Controls.obey start') := by
    rintro start _ rfl
    exact (Controls.Agrees.refl start).obey_perm horders hothers htick
  have hany : volleys.any (·.fullThrust) = volleys'.any (·.fullThrust) := hperm.any_eq
  rw [foldl_carryOut h, foldl_carryOut h', Controls.foldl_obey_comm Controls.unturned_obey hforSlot,
    Controls.foldl_obey_comm Controls.unturned_obey hforSlot']
  refine ⟨hagrees ?_, fun hcourse => hagrees ?_⟩
  · rw [foldl_head, foldl_head, hany]
    rfl
  · rw [foldl_head, foldl_head, hany, hcourse]

/-- Only those that turn the ship decide on the course. -/
theorem course_salvo (h : ∀ l ∈ leaves, l.Volleys c (fire l)) (dice : Dice)
    (course : Option Float32) :
    (salvo (leaves.map fire) dice).1.foldl (fun course v => v.course.or course) course =
      (salvo ((leaves.filter Leaf.turns).map fire) dice).1.foldl
        (fun course v => v.course.or course) course := by
  induction leaves generalizing dice course with
  | nil => rfl
  | cons l rest ih =>
    obtain ⟨hl, hrest⟩ := List.forall_mem_cons.mp h
    cases hturns : l.turns with
    | true =>
      rw [List.filter_cons_of_pos hturns, List.map_cons, List.map_cons]
      exact ih hrest _ _
    | false =>
      obtain ⟨hcourse, hdice⟩ := hl.straight hturns dice
      rw [List.filter_cons_of_neg (by simp [hturns]), ← ih hrest, List.map_cons, salvo]
      dsimp only
      rw [List.foldl_cons, hcourse, hdice]
      rfl

theorem forSlot_salvo (h : ∀ l ∈ leaves, l.Volleys c (fire l)) (dice : Dice) :
    ∀ v ∈ (salvo (leaves.map fire) dice).1, ∀ order ∈ v.orders, order.forSlot = true := by
  induction leaves generalizing dice with
  | nil => exact fun v hv => absurd hv List.not_mem_nil
  | cons l rest ih =>
    obtain ⟨hl, hrest⟩ := List.forall_mem_cons.mp h
    exact List.forall_mem_cons.mpr ⟨hl.forSlot dice, ih hrest _⟩

end Salvo

/-! ## Parallel nodes -/

theorem Status.aggregate_perm {statuses statuses' : List Status} (needed : Nat)
    (h : statuses.Perm statuses') : aggregate needed statuses = aggregate needed statuses' := by
  rw [aggregate, aggregate, h.count_eq, h.count_eq]

/-- When all the children of a parallel node are leaves that give orders to slots, they may stand in
any order. -/
theorem ShipNode.tick_parallel_perm {level : Level} {leaves leaves' : List Leaf}
    (policy : ParallelPolicy) (h : ∀ l ∈ leaves, l.Wields level) (hperm : leaves.Perm leaves')
    (c : Context) : ∃ status nodes nodes' dice controls controls',
      Node.tick (.parallel policy (leaves.map .leaf)) c =
          .ok (status, .parallel policy nodes, c.holding dice controls) ∧
        Node.tick (.parallel policy (leaves'.map .leaf)) c =
          .ok (status, .parallel policy nodes', c.holding dice controls') ∧
        nodes.Perm nodes' ∧ controls.unturned.Agrees controls'.unturned ∧
        (leaves.filter Leaf.turns = leaves'.filter Leaf.turns → controls.Agrees controls') := by
  obtain ⟨fresh, hfresh⟩ := c.exists_volleys level
  have : Nonempty (Dice → Volley × Dice) := ⟨fresh⟩
  choose! fire hfire using hfresh
  have hvolleys : ∀ l ∈ leaves, l.Volleys c (fire l) := fun l hl => (hfire l (h l hl)).1
  have hvolleys' : ∀ l ∈ leaves', l.Volleys c (fire l) :=
    fun l hl => hvolleys l (hperm.mem_iff.mpr hl)
  have hdrawn : ∀ f ∈ leaves.map fire, Leaf.Steady f ∨ f = fresh :=
    List.forall_mem_map.mpr fun l hl => (hfire l (h l hl)).2
  let dice := c.memory.dice
  let controls := c.memory.controls
  obtain ⟨hsalvo, hdice⟩ := salvo_perm hdrawn (hperm.map fire) dice
  have hturn := inTurn_salvo hvolleys dice controls
  have hturn' := inTurn_salvo hvolleys' dice controls
  have hstatus := Status.aggregate_perm (policy.required leaves.length)
    (hsalvo.map (·.status))
  obtain ⟨hunturned, hagrees⟩ := agrees_volleys hsalvo (forSlot_salvo hvolleys dice) controls
  refine ⟨_, _, _, _, _, _, hturn.parallel policy, ?_, hsalvo.map _, hunturned, fun hturns => ?_⟩
  · rw [List.length_map, hstatus, hperm.length_eq, hdice]
    have hparallel := hturn'.parallel policy
    rwa [List.length_map] at hparallel
  · refine hagrees ?_
    rw [course_salvo hvolleys, course_salvo hvolleys', hturns]

/-- After any orders, those of the latest tick alone say which slots fire, are held and are on: a
slot is held when it was told to and not told to fire, so none is both held and fired. Orders to
slots may be given in any order within their tick. So if all the children of a parallel node are
leaves that give such orders, they may stand in any order, and only the course depends on it, where
those that turn the ship change places. -/
theorem Controls.after_orders :
    (∀ orders slot,
      ((after orders).firing.contains slot = true ↔ .fire slot ∈ Order.latest orders) ∧
      ((after orders).charging.contains slot = true ↔
        .charge slot ∈ Order.latest orders ∧ .fire slot ∉ Order.latest orders) ∧
      ((after orders).devices.contains slot = true ↔ .activate slot ∈ Order.latest orders) ∧
      ¬((after orders).firing.contains slot = true ∧
        (after orders).charging.contains slot = true)) ∧
    (∀ before tick tick' later, .beginTick ∉ tick → tick.Perm tick' →
      tick.filter (!·.forSlot) = tick'.filter (!·.forSlot) →
      after (before ++ tick ++ later) = after (before ++ tick' ++ later)) ∧
    ∀ (level : Level) (leaves leaves' : List Leaf) (policy : ParallelPolicy) (c : Context),
      (∀ l ∈ leaves, l.Wields level) → leaves.Perm leaves' →
      ∃ status nodes nodes' dice controls controls',
        Node.tick (.parallel policy (leaves.map .leaf)) c =
            .ok (status, .parallel policy nodes, c.holding dice controls) ∧
          Node.tick (.parallel policy (leaves'.map .leaf)) c =
            .ok (status, .parallel policy nodes', c.holding dice controls') ∧
          nodes.Perm nodes' ∧ controls.unturned.Agrees controls'.unturned ∧
          (leaves.filter Leaf.turns = leaves'.filter Leaf.turns → controls.Agrees controls') := by
  refine ⟨fun orders slot => ?_, fun before tick tick' later htick hperm hothers => ?_, ?_⟩
  · have htick := Order.beginTick_notMem_latest orders
    rw [after_eq, contains_firing htick, contains_charging htick, contains_devices htick]
    simp only [SlotSet.contains_empty, Bool.false_eq_true, false_or, not_false_eq_true, and_true,
      true_and]
    exact fun h => h.2.2 h.1
  · have hsplit : ∀ tick, after (before ++ tick ++ later) =
        later.foldl obey (tick.foldl obey (after before)) := by simp [after]
    have hagrees := (Agrees.refl (after before)).obey_perm hperm hothers htick
    rw [hsplit, hsplit, hagrees.eq ((ordered_after before).foldl tick)
      ((ordered_after before).foldl tick')]
  · intro level leaves leaves' policy c hleaves hperm
    exact ShipNode.tick_parallel_perm policy hleaves hperm c

def defender : ShipState := .create ⟨1⟩ .zero

/-- An enemy on its way past the defender. -/
def raider : ShipState := { ShipState.create ⟨2⟩ ⟨5, 0⟩ with velocity := ⟨0, 4⟩ }

/-- The defender has two turrets, one of them a beam, and no target yet. -/
def lull : Context :=
  let turrets : List Weapon := [⟨0, .beam, 10, 0, 360, 0⟩, ⟨1, .projectile, 10, 10, 360, 1⟩]
  .create ⟨1⟩ { weapons := turrets } ((({} : Scene).addShip defender 0).addShip raider 1)
    (Dice.forShip 0 1 .runtime)

/-- The raider is the target, and within the range of both turrets. -/
def crossfire : Context := lull.setTarget (some ⟨2⟩)

/-- An attack and a device change places, and so do two orders to the same slot. -/
theorem Controls.after_orders_crossfire :
    after [.charge 1, .fire 1] = after [.fire 1, .charge 1] ∧
      let attack : Leaf := .attack ⟨.expert, none⟩
      let device : Leaf := .action (.activateDevice [3])
      ∃ status nodes nodes' dice controls controls',
        Node.tick (.parallel .requireAll ([attack, device].map .leaf)) crossfire =
            .ok (status, .parallel .requireAll nodes, crossfire.holding dice controls) ∧
          Node.tick (.parallel .requireAll ([device, attack].map .leaf)) crossfire =
            .ok (status, .parallel .requireAll nodes', crossfire.holding dice controls') ∧
          controls.Agrees controls' := by
  obtain ⟨-, horders, hparallel⟩ := after_orders
  constructor
  · exact horders [] [.charge 1, .fire 1] [.fire 1, .charge 1] [] (by decide) (.swap _ _ _) rfl
  · intro attack device
    have hleaves : ∀ l ∈ [attack, device], l.Wields .expert := by
      simp [attack, device, Leaf.Wields]
    obtain ⟨status, nodes, nodes', dice, controls, controls', htick, htick', -, -, hagrees⟩ :=
      hparallel .expert [attack, device] [device, attack] .requireAll crossfire hleaves
        (.swap _ _ _)
    exact ⟨status, nodes, nodes', dice, controls, controls', htick, htick', hagrees rfl⟩

/-! ## Where the order matters -/

/-- The status, and the slots that are fired from, when leaves are ticked in parallel. -/
def firedInParallel (leaves : List Leaf) (c : Context) : Option (Status × List Nat) :=
  (Node.tick (.parallel .requireAll (leaves.map .leaf)) c).toOption.map fun r =>
    (r.1, r.2.2.memory.controls.firing.slots)

/-- The course when leaves are ticked in parallel. -/
def courseInParallel (leaves : List Leaf) (c : Context) : Option Float32 :=
  (Node.tick (.parallel .requireAll (leaves.map .leaf)) c).toOption.bind fun r =>
    r.2.2.memory.controls.course

/-- Of two leaves the second sets the course, if it turns the ship. -/
theorem courseInParallel_pair {c : Context} {first second : Leaf} {v v' : Volley} {course : Float32}
    (hfirst : first.Volleys c fun dice => (v, dice))
    (hsecond : second.Volleys c fun dice => (v', dice)) (hcourse : v'.course = some course) :
    courseInParallel [first, second] c = some course := by
  let dice := c.memory.dice
  let controls := c.memory.controls
  have htick : Behavior.tick first c = _ := hfirst.tick dice controls
  have htick' : Behavior.tick second (c.holding dice (v.carryOut controls)) = _ :=
    hsecond.tick dice (v.carryOut controls)
  have hturn : Node.InTurn [.leaf first, .leaf second] c [v.status, v'.status]
      [.leaf v.next, .leaf v'.next] (c.holding dice (v'.carryOut (v.carryOut controls))) :=
    .cons (by rw [Node.tick, htick]; rfl) (.cons (by rw [Node.tick, htick']; rfl) (.nil _))
  have hafter : courseInParallel [first, second] c =
      (v'.carryOut (v.carryOut controls)).course := by
    rw [courseInParallel, List.map_cons, List.map_cons, List.map_nil, hturn.parallel]
    rfl
  rw [hafter, Volley.course_carryOut (hsecond.forSlot dice), hcourse, Option.some_or]

/-- A leaf that uses the recoil turns the ship to where the target is, and an attack turns it to
where the shots meet the target. The second of the two decides. -/
theorem courseInParallel_recoil {c : Context} {me target : ShipState} {a : Attack} {aim : Aim}
    (weapons : Arsenal) (h : Attack.Engages c me target) (haim : a.aimAt? target.id = some aim)
    (hnear : ¬c.memory.arsenal.rangeMin ≤ me.gapTo target) :
    courseInParallel [.attack a, .action (.useRecoil weapons)] c =
        some (headingTo me.position target.position) ∧
      courseInParallel [.action (.useRecoil weapons), .attack a] c =
        some (Attack.leadCourse c me target + aim.offset) :=
  have hattack := Attack.volleys_of_aim h haim
  have hrecoil := Action.volleys_useRecoil weapons h.1 hnear
  ⟨courseInParallel_pair hattack hrecoil rfl, courseInParallel_pair hrecoil hattack rfl⟩

/-- Leaves that give no orders to slots make the order of the others matter: after the beam has been
selected an attack fires the beam only, before that it fires both turrets; and before a target has
been found it fails and fires nothing. The order of two leaves that turn the ship matters as well:
the ship is turned to where the raider is, or to where shots meet it. The two headings stand as they
are, for proofs do not work out an arctangent. -/
theorem tick_parallel_order :
    (let attack : Leaf := .attack ⟨.expert, none⟩
      let select : Leaf := .action (.selectWeapon (crossfire.memory.arsenal.ofKind .beam))
      firedInParallel [select, attack] crossfire = some (.success, [0]) ∧
        firedInParallel [attack, select] crossfire = some (.success, [0, 1])) ∧
    (let attack : Leaf := .attack ⟨.expert, none⟩
      let search : Leaf := .findEnemy (.create 0 0 false false none)
      let device : Leaf := .action (.activateDevice [3])
      firedInParallel [attack, search, device] lull = some (.failure, []) ∧
        firedInParallel [device, search, attack] lull = some (.success, [0, 1])) ∧
    let attack : Leaf := .attack ⟨.expert, some ⟨⟨2⟩, 0, 0⟩⟩
    let recoil : Leaf := .action (.useRecoil crossfire.memory.arsenal)
    let meeting := leadPoint defender raider (some 10)
    courseInParallel [attack, recoil] crossfire =
        some (headingTo defender.position raider.position) ∧
      courseInParallel [recoil, attack] crossfire =
        some (headingTo defender.position meeting + 0) ∧
      meeting ≠ raider.position := by
  refine ⟨by decide +kernel, by decide +kernel, ?_⟩
  have hengages : Attack.Engages crossfire defender raider := by
    unfold Attack.Engages
    decide +kernel
  have hspeed : (Attack.reaching crossfire (defender.gapTo raider)).projectileSpeed? = some 10 := by
    decide +kernel
  obtain ⟨hrecoil, hattack⟩ := courseInParallel_recoil (a := ⟨.expert, some ⟨⟨2⟩, 0, 0⟩⟩)
    crossfire.memory.arsenal hengages rfl (by decide +kernel)
  rw [Attack.leadCourse, hspeed] at hattack
  exact ⟨hrecoil, hattack, by decide +kernel⟩

end Helm
