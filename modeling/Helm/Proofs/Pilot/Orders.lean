import Helm.Pilot.Controls
import Mathlib.Data.List.Induction

/-!
# Helm.Proofs.Pilot.Orders

What is asked of the controls, as a list of `Order`s. Only the orders since the last tick began
count (`Controls.after_eq`), and of those it matters which were given and not when: a slot fires
when it was told to, is held when it was told to and not told to fire, and is on when it was told to
(`contains_firing`, `contains_charging`, `contains_devices`). So the orders to slots may be given in
any order (`Agrees.obey_perm`). The sets of slots are kept in ascending order (`Controls.Ordered`),
so that controls which agree on every slot are equal.
-/

namespace Helm

/-- Something that is asked of the controls. -/
inductive Order where
  | beginTick
  | steer (course thrust : Float32)
  | fire (slot : Nat)
  | charge (slot : Nat)
  | activate (slot : Nat)
  deriving DecidableEq, Repr

namespace Order

/-- The order is for a slot. -/
def forSlot : Order → Bool
  | beginTick => false
  | steer _ _ => false
  | fire _ => true
  | charge _ => true
  | activate _ => true

/-- The orders since a tick began, or since the first one. -/
def latest (orders : List Order) : List Order :=
  (orders.reverse.takeWhile (· ≠ beginTick)).reverse

theorem latest_concat (orders : List Order) (order : Order) :
    latest (orders ++ [order]) =
      if order = beginTick then [] else latest orders ++ [order] := by
  by_cases h : order = beginTick <;> simp [latest, h]

theorem beginTick_notMem_latest (orders : List Order) : beginTick ∉ latest orders := by
  induction orders using List.reverseRec with
  | nil => exact List.not_mem_nil
  | append_singleton orders order ih =>
    rw [latest_concat]
    split
    · exact List.not_mem_nil
    · rename_i h
      simp [ih, Ne.symm h]

end Order

namespace Controls

/-- Carries out an order. -/
def obey (c : Controls) : Order → Controls
  | .beginTick => c.beginTick
  | .steer course thrust => c.steer course thrust
  | .fire slot => c.fire slot
  | .charge slot => c.charge slot
  | .activate slot => c.activate slot

/-- The controls after some orders, when nothing has been asked of them before. -/
def after (orders : List Order) : Controls := orders.foldl obey {}

variable {c c' : Controls} {orders orders' : List Order} {slot : Nat}

theorem charge_cases (c : Controls) (slot : Nat) :
    c.charge slot = c ∨ c.charge slot = { c with charging := c.charging.insert slot } := by
  rw [charge]
  split
  · exact .inl rfl
  · exact .inr rfl

/-! ## Slots -/

theorem contains_firing (h : .beginTick ∉ orders) :
    (orders.foldl obey c).firing.contains slot = true ↔
      c.firing.contains slot = true ∨ .fire slot ∈ orders := by
  induction orders generalizing c with
  | nil => simp
  | cons order rest ih =>
    obtain ⟨hfirst, hrest⟩ := not_or.mp (mt List.mem_cons.mpr h)
    rw [List.foldl_cons, ih hrest]
    cases order with
    | beginTick => exact absurd rfl hfirst
    | steer course thrust => simp [obey, steer]
    | fire other => simp [obey, fire, SlotSet.contains_insert, or_assoc, or_left_comm]
    | charge other => rcases charge_cases c other with heq | heq <;> simp [obey, heq]
    | activate other => simp [obey, activate]

/-- A slot that fires already cannot be held, and one that is told to fire is not held any more,
wherever among the others that order stands. -/
theorem contains_charging (h : .beginTick ∉ orders) :
    (orders.foldl obey c).charging.contains slot = true ↔
      (c.charging.contains slot = true ∨
        .charge slot ∈ orders ∧ ¬c.firing.contains slot = true) ∧ .fire slot ∉ orders := by
  induction orders generalizing c with
  | nil => simp
  | cons order rest ih =>
    obtain ⟨hfirst, hrest⟩ := not_or.mp (mt List.mem_cons.mpr h)
    rw [List.foldl_cons, ih hrest]
    cases order with
    | beginTick => exact absurd rfl hfirst
    | steer course thrust => simp [obey, steer]
    | fire other =>
      simp only [obey, fire, SlotSet.contains_erase, SlotSet.contains_insert, List.mem_cons,
        Order.fire.injEq, reduceCtorEq, false_or]
      grind
    | charge other =>
      simp only [obey, charge, List.mem_cons, Order.charge.injEq, reduceCtorEq, false_or]
      split
      · grind
      · rw [SlotSet.contains_insert]
        grind
    | activate other => simp [obey, activate]

theorem contains_devices (h : .beginTick ∉ orders) :
    (orders.foldl obey c).devices.contains slot = true ↔
      c.devices.contains slot = true ∨ .activate slot ∈ orders := by
  induction orders generalizing c with
  | nil => simp
  | cons order rest ih =>
    obtain ⟨hfirst, hrest⟩ := not_or.mp (mt List.mem_cons.mpr h)
    rw [List.foldl_cons, ih hrest]
    cases order with
    | beginTick => exact absurd rfl hfirst
    | steer course thrust => simp [obey, steer]
    | fire other => simp [obey, fire]
    | charge other => rcases charge_cases c other with heq | heq <;> simp [obey, heq]
    | activate other => simp [obey, activate, SlotSet.contains_insert, or_assoc, or_left_comm]

/-! ## Everything else -/

/-- The commands without those to slots. -/
def unarmed (c : Controls) : Controls :=
  { c with firing := .empty, charging := .empty, devices := .empty }

theorem unarmed_obey {order : Order} (h : order.forSlot = true) :
    (c.obey order).unarmed = c.unarmed := by
  cases order with
  | beginTick => cases h
  | steer course thrust => cases h
  | fire slot => rfl
  | charge slot => rcases charge_cases c slot with heq | heq <;> simp [obey, heq, unarmed]
  | activate slot => rfl

theorem unarmed_foldl (c : Controls) (orders : List Order) :
    (orders.foldl obey c).unarmed = (orders.filter (!·.forSlot)).foldl obey c.unarmed := by
  induction orders generalizing c with
  | nil => rfl
  | cons order rest ih =>
    rw [List.foldl_cons, ih]
    cases h : order.forSlot with
    | true => simp [h, unarmed_obey]
    | false =>
      cases order with
      | beginTick => rfl
      | steer course thrust => rfl
      | _ => cases h

/-- The commands are the same, in whatever order the sets of slots are kept. -/
structure Agrees (c c' : Controls) : Prop where
  unarmed : c.unarmed = c'.unarmed
  firing : ∀ slot, c.firing.contains slot = c'.firing.contains slot
  charging : ∀ slot, c.charging.contains slot = c'.charging.contains slot
  devices : ∀ slot, c.devices.contains slot = c'.devices.contains slot

theorem Agrees.refl (c : Controls) : c.Agrees c := ⟨rfl, fun _ => rfl, fun _ => rfl, fun _ => rfl⟩

/-- Within a tick it does not matter when a slot is told something. -/
theorem Agrees.obey_perm (h : c.Agrees c') (hperm : orders.Perm orders')
    (hothers : orders.filter (!·.forSlot) = orders'.filter (!·.forSlot))
    (htick : .beginTick ∉ orders) : (orders.foldl obey c).Agrees (orders'.foldl obey c') := by
  have htick' : .beginTick ∉ orders' := mt hperm.mem_iff.mpr htick
  refine ⟨?_, fun slot => ?_, fun slot => ?_, fun slot => ?_⟩
  · rw [unarmed_foldl, unarmed_foldl, hothers, h.unarmed]
  · rw [Bool.eq_iff_iff, contains_firing htick, contains_firing htick', h.firing, hperm.mem_iff]
  · rw [Bool.eq_iff_iff, contains_charging htick, contains_charging htick', h.firing, h.charging,
      hperm.mem_iff, hperm.mem_iff]
  · rw [Bool.eq_iff_iff, contains_devices htick, contains_devices htick', h.devices, hperm.mem_iff]

/-! ## Sets in ascending order -/

/-- The sets of slots are kept in ascending order. -/
structure Ordered (c : Controls) : Prop where
  firing : c.firing.slots.Pairwise (· < ·)
  charging : c.charging.slots.Pairwise (· < ·)
  devices : c.devices.slots.Pairwise (· < ·)

theorem Agrees.eq (h : c.Agrees c') (hc : c.Ordered) (hc' : c'.Ordered) : c = c' := by
  have hfiring := SlotSet.eq_of_ascending hc.firing hc'.firing h.firing
  have hcharging := SlotSet.eq_of_ascending hc.charging hc'.charging h.charging
  have hdevices := SlotSet.eq_of_ascending hc.devices hc'.devices h.devices
  have hothers := h.unarmed
  cases c
  cases c'
  simp_all [Controls.unarmed]

theorem Ordered.obey (h : c.Ordered) (order : Order) : (c.obey order).Ordered := by
  cases order with
  | beginTick => exact ⟨.nil, .nil, .nil⟩
  | steer course thrust => exact { h with }
  | fire slot =>
    exact { h with
      firing := SlotSet.insertSlot_ascending h.firing
      charging := h.charging.filter _ }
  | charge slot =>
    rcases charge_cases c slot with heq | heq
    · rwa [Controls.obey, heq]
    · rw [Controls.obey, heq]
      exact { h with charging := SlotSet.insertSlot_ascending h.charging }
  | activate slot => exact { h with devices := SlotSet.insertSlot_ascending h.devices }

theorem Ordered.foldl (h : c.Ordered) (orders : List Order) :
    (orders.foldl Controls.obey c).Ordered :=
  List.foldlRecOn (motive := Ordered) orders Controls.obey h fun _ hc order _ => hc.obey order

theorem ordered_after (orders : List Order) : (after orders).Ordered :=
  .foldl ⟨.nil, .nil, .nil⟩ orders

/-! ## The latest tick -/

theorem stays_after (orders : List Order) :
    (after orders).selfDestruct = false ∧ (after orders).vanish = false := by
  refine List.foldlRecOn (motive := fun c => c.selfDestruct = false ∧ c.vanish = false)
    orders obey ?_ fun c hc order _ => ?_
  · exact ⟨rfl, rfl⟩
  · cases order with
    | charge slot => rcases charge_cases c slot with heq | heq <;> simpa [obey, heq] using hc
    | _ => exact hc

/-- What was asked before the last tick began is forgotten. -/
theorem after_eq (orders : List Order) : after orders = (Order.latest orders).foldl obey {} := by
  induction orders using List.reverseRec with
  | nil => rfl
  | append_singleton orders order ih =>
    have hlast : after (orders ++ [order]) = (after orders).obey order := by simp [after]
    rw [hlast, Order.latest_concat]
    split
    · rename_i h
      obtain ⟨hdestruct, hvanish⟩ := stays_after orders
      rw [h, obey, beginTick, hdestruct, hvanish]
      rfl
    · rw [ih, List.foldl_append]
      rfl

end Controls
end Helm
