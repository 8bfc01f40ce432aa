import Helm.Proofs.Tree.Wheel
import Helm.Tree.Node

/-!
# Helm.Proofs.Tree.Invariant

What ticks keep of a tree and of the context. `Node.Everywhere P` says that `P` holds of a node and
of all nodes below it. Given what the leaves do (`Upholds`), a tick of a tree whose wheels fit their
children is abandoned for no other reasons than its leaves are, and the tree and the context come
out of it as good as they were (`tick_yields`). So are the contexts on the way, in which a tick
`Meets` one leaf after the other (`Meets.keeps`).
-/

namespace Helm.Node

variable {L C : Type}

/-- The nodes directly below. -/
def children : Node L → List (Node L)
  | sequence children => children
  | selector children => children
  | parallel _ children => children
  | randomSelector _ children => children
  | inverter child => [child]
  | constantResult _ child => [child]
  | completeOnce _ _ child => [child]
  | _ => []

/-- The second node stands somewhere in the first, at any depth. -/
inductive Contains : Node L → Node L → Prop where
  | self (node : Node L) : Contains node node
  | deeper {node child inner : Node L} :
      child ∈ node.children → Contains child inner → Contains node inner

/-- A property of a node and of all nodes below it. -/
def Everywhere (P : Node L → Prop) (node : Node L) : Prop := ∀ inner, node.Contains inner → P inner

theorem everywhere_iff {P : Node L → Prop} {node : Node L} :
    node.Everywhere P ↔ P node ∧ ∀ child ∈ node.children, child.Everywhere P := by
  constructor
  · intro h
    exact ⟨h node (.self node), fun child hchild inner hinner => h inner (.deeper hchild hinner)⟩
  · rintro ⟨hself, hchildren⟩ inner hinner
    cases hinner with
    | self => exact hself
    | deeper hchild hinner => exact hchildren _ hchild inner hinner

theorem Everywhere.mono {P Q : Node L → Prop} {node : Node L} (h : node.Everywhere P)
    (hPQ : ∀ inner, P inner → Q inner) : node.Everywhere Q :=
  fun inner hinner => hPQ inner (h inner hinner)

/-- The node has no nodes below it. -/
def IsLeaf : Node L → Prop
  | leaf _ => True
  | alwaysSuccess => True
  | alwaysFailure => True
  | _ => False

theorem everywhere_of_isLeaf {P : Node L → Prop} {node : Node L} (hnode : node.IsLeaf)
    (h : P node) : node.Everywhere P := by
  refine everywhere_iff.mpr ⟨h, fun child hchild => ?_⟩
  cases node with
  | leaf l => cases hchild
  | alwaysSuccess => cases hchild
  | alwaysFailure => cases hchild
  | _ => cases hnode

theorem isLeaf_of_constant? {node : Node L} {s : Status} (h : node.constant? = some s) :
    node.IsLeaf := by
  cases node with
  | alwaysSuccess => trivial
  | alwaysFailure => trivial
  | _ => cases h

/-- A node that can be ticked: a leaf has the property given, and a wheel fits the children. -/
def Fit (leafOk : L → Prop) : Node L → Prop
  | leaf l => leafOk l
  | randomSelector wheel children => wheel.Fits children.length ∧ 0 < children.length
  | _ => True

variable [Behavior L C] [TickContext C]

/-- Leaves and draws keep a property of the leaves and one of the context, and a leaf is abandoned
for an allowed reason if at all. -/
structure Upholds (allowed : Fault → Prop) (leafOk : L → Prop) (inv : C → Prop) : Prop where
  leaf : ∀ l c, leafOk l → inv c →
    Yields allowed (fun r => leafOk r.2.1 ∧ inv r.2.2) (Behavior.tick l c)
  word : Draw.Steady inv

section Lists

variable {allowed : Fault → Prop} {leafOk : L → Prop} {inv : C → Prop} {cs : List (Node L)} {c : C}

/-- A tick of the node keeps both properties. -/
def Kept (allowed : Fault → Prop) (leafOk : L → Prop) (inv : C → Prop) (node : Node L) : Prop :=
  ∀ c : C, inv c →
    Yields allowed (fun r => r.2.1.Everywhere (Fit leafOk) ∧ inv r.2.2) (node.tick c)

/-- What a tick makes of a list of children: as many, and each of them can be ticked. -/
structure Siblings (leafOk : L → Prop) (before after : List (Node L)) : Prop where
  length : after.length = before.length
  fit : ∀ child ∈ after, child.Everywhere (Fit leafOk)

theorem Siblings.cons {child next : Node L} {before after : List (Node L)}
    (hnext : next.Everywhere (Fit leafOk)) (h : Siblings leafOk before after) :
    Siblings leafOk (child :: before) (next :: after) :=
  ⟨congrArg (· + 1) h.length, List.forall_mem_cons.mpr ⟨hnext, h.fit⟩⟩

theorem tickWhile_yields (go : Status)
    (hfit : ∀ child ∈ cs, child.Everywhere (Fit leafOk))
    (h : ∀ child ∈ cs, Kept allowed leafOk inv child) (hc : inv c) :
    Yields allowed (fun r => Siblings leafOk cs r.2.1 ∧ inv r.2.2) (tickWhile go cs c) := by
  induction cs generalizing c with
  | nil => exact ⟨⟨rfl, hfit⟩, hc⟩
  | cons child rest ih =>
    obtain ⟨-, hfitRest⟩ := List.forall_mem_cons.mp hfit
    obtain ⟨hchild, hrest⟩ := List.forall_mem_cons.mp h
    rw [tickWhile]
    refine (hchild c hc).bind ?_
    rintro ⟨status, next, c'⟩ ⟨hnext, hc'⟩
    dsimp only
    split
    · exact (ih hfitRest hrest hc').bind fun r hr => ⟨hr.1.cons hnext, hr.2⟩
    · exact ⟨Siblings.cons hnext ⟨rfl, hfitRest⟩, hc'⟩

theorem tickAll_yields (h : ∀ child ∈ cs, Kept allowed leafOk inv child) (hc : inv c) :
    Yields allowed (fun r => Siblings leafOk cs r.2.1 ∧ inv r.2.2) (tickAll cs c) := by
  induction cs generalizing c with
  | nil => exact ⟨⟨rfl, fun _ hchild => absurd hchild List.not_mem_nil⟩, hc⟩
  | cons child rest ih =>
    obtain ⟨hchild, hrest⟩ := List.forall_mem_cons.mp h
    rw [tickAll]
    refine (hchild c hc).bind ?_
    rintro ⟨status, next, c'⟩ ⟨hnext, hc'⟩
    exact (ih hrest hc').bind fun r hr => ⟨hr.1.cons hnext, hr.2⟩

/-- There is a child to tick at every position below the number of children. -/
theorem tickAt_yields {index : Nat} (hindex : index < cs.length)
    (hfit : ∀ child ∈ cs, child.Everywhere (Fit leafOk))
    (h : ∀ child ∈ cs, Kept allowed leafOk inv child) (hc : inv c) :
    Yields allowed (fun r => Siblings leafOk cs r.2.1 ∧ inv r.2.2) (tickAt index cs c) := by
  induction cs generalizing index with
  | nil => cases hindex
  | cons child rest ih =>
    obtain ⟨hfitChild, hfitRest⟩ := List.forall_mem_cons.mp hfit
    obtain ⟨hchild, hrest⟩ := List.forall_mem_cons.mp h
    cases index with
    | zero =>
      rw [tickAt]
      exact (hchild c hc).bind fun r hr => ⟨Siblings.cons hr.1 ⟨rfl, hfitRest⟩, hr.2⟩
    | succ index =>
      rw [tickAt]
      exact (ih (Nat.lt_of_succ_lt_succ hindex) hfitRest hrest).bind fun r hr =>
        ⟨hr.1.cons hfitChild, hr.2⟩

end Lists

/-- A tick keeps what leaves and draws keep, and is abandoned only where one of its leaves is. -/
theorem tick_yields {allowed : Fault → Prop} {leafOk : L → Prop} {inv : C → Prop}
    (h : Upholds allowed leafOk inv) (node : Node L) (hfit : node.Everywhere (Fit leafOk)) :
    Kept allowed leafOk inv node := by
  induction node with
  | leaf l =>
    intro c hc
    have hl : leafOk l := (everywhere_iff.mp hfit).1
    rw [tick]
    exact (h.leaf l c hl hc).bind fun r hr => ⟨everywhere_of_isLeaf trivial hr.1, hr.2⟩
  | alwaysSuccess => exact fun c hc => ⟨hfit, hc⟩
  | alwaysFailure => exact fun c hc => ⟨hfit, hc⟩
  | sequence children ih =>
    intro c hc
    have hchildren := (everywhere_iff.mp hfit).2
    have hkept := fun child hmem => ih child hmem (hchildren child hmem)
    rw [tick]
    refine (tickWhile_yields _ hchildren hkept hc).bind fun r hr => ⟨?_, hr.2⟩
    exact everywhere_iff.mpr ⟨trivial, hr.1.fit⟩
  | selector children ih =>
    intro c hc
    have hchildren := (everywhere_iff.mp hfit).2
    have hkept := fun child hmem => ih child hmem (hchildren child hmem)
    rw [tick]
    refine (tickWhile_yields _ hchildren hkept hc).bind fun r hr => ⟨?_, hr.2⟩
    exact everywhere_iff.mpr ⟨trivial, hr.1.fit⟩
  | parallel policy children ih =>
    intro c hc
    have hchildren := (everywhere_iff.mp hfit).2
    have hkept := fun child hmem => ih child hmem (hchildren child hmem)
    rw [tick]
    refine (tickAll_yields hkept hc).bind fun r hr => ⟨?_, hr.2⟩
    exact everywhere_iff.mpr ⟨trivial, hr.1.fit⟩
  | randomSelector wheel children ih =>
    intro c hc
    obtain ⟨⟨hwheel, hlength⟩, hchildren⟩ := everywhere_iff.mp hfit
    have hkept := fun child hmem => ih child hmem (hchildren child hmem)
    rw [tick]
    refine (wheel.turn_yields h.word hwheel hlength _ hc).bind ?_
    rintro ⟨index, wheel', c'⟩ ⟨hindex, hwheel', hc'⟩
    refine (tickAt_yields hindex hchildren hkept hc').bind ?_
    rintro ⟨status, next, c''⟩ ⟨hnext, hc''⟩
    -- as many children as before, so that the wheel still fits
    have hfit' : (wheel'.record status).Fits next.length ∧ 0 < next.length := by
      rw [hnext.length]
      exact ⟨hwheel'.record status, hlength⟩
    exact ⟨everywhere_iff.mpr ⟨hfit', hnext.fit⟩, hc''⟩
  | inverter child ih =>
    intro c hc
    have hchild := (everywhere_iff.mp hfit).2 child List.mem_cons_self
    rw [tick]
    refine (ih hchild c hc).bind fun r hr => ⟨?_, hr.2⟩
    exact everywhere_iff.mpr ⟨trivial, List.forall_mem_singleton.mpr hr.1⟩
  | constantResult result child ih =>
    intro c hc
    have hchild := (everywhere_iff.mp hfit).2 child List.mem_cons_self
    rw [tick]
    refine (ih hchild c hc).bind fun r hr => ⟨?_, hr.2⟩
    exact everywhere_iff.mpr ⟨trivial, List.forall_mem_singleton.mpr hr.1⟩
  | completeOnce result completed child ih =>
    intro c hc
    have hchild := (everywhere_iff.mp hfit).2 child List.mem_cons_self
    rw [tick]
    split
    · exact ⟨hfit, hc⟩
    · refine (ih hchild c hc).bind fun r hr => ⟨?_, hr.2⟩
      exact everywhere_iff.mpr ⟨trivial, List.forall_mem_singleton.mpr hr.1⟩

/-! ## In the middle of a tick -/

/-- A tick of the node in the first context comes to tick the leaf in the second. -/
inductive Meets : Node L → C → L → C → Prop where
  | leaf (l : L) (c : C) : Meets (leaf l) c l c
  | sequence {before after next : List (Node L)} {child : Node L} {c c₁ c' : C} {l : L} :
      tickWhile .success before c = .ok (.success, next, c₁) → Meets child c₁ l c' →
      Meets (sequence (before ++ child :: after)) c l c'
  | selector {before after next : List (Node L)} {child : Node L} {c c₁ c' : C} {l : L} :
      tickWhile .failure before c = .ok (.failure, next, c₁) → Meets child c₁ l c' →
      Meets (selector (before ++ child :: after)) c l c'
  | parallel {policy : ParallelPolicy} {before after next : List (Node L)}
      {statuses : List Status} {child : Node L} {c c₁ c' : C} {l : L} :
      tickAll before c = .ok (statuses, next, c₁) → Meets child c₁ l c' →
      Meets (parallel policy (before ++ child :: after)) c l c'
  | randomSelector {wheel wheel' : Wheel} {children : List (Node L)} {index : Nat}
      {child : Node L} {c c₁ c' : C} {l : L} :
      wheel.turn (TickContext.time c) c = .ok (index, wheel', c₁) →
      children[index]? = some child → Meets child c₁ l c' →
      Meets (randomSelector wheel children) c l c'
  | inverter {child : Node L} {c c' : C} {l : L} :
      Meets child c l c' → Meets (inverter child) c l c'
  | constantResult {result : Status} {child : Node L} {c c' : C} {l : L} :
      Meets child c l c' → Meets (constantResult result child) c l c'
  | completeOnce {result : Status} {child : Node L} {c c' : C} {l : L} :
      Meets child c l c' → Meets (completeOnce result false child) c l c'

section Moments

variable {allowed : Fault → Prop} {leafOk : L → Prop} {inv : C → Prop}

/-- What the children that come first make of the context is as good as it was. -/
theorem tickWhile_keeps (h : Upholds allowed leafOk inv) {go status : Status}
    {cs next : List (Node L)} {c c' : C} (hfit : ∀ child ∈ cs, child.Everywhere (Fit leafOk))
    (hc : inv c) (hticks : tickWhile go cs c = .ok (status, next, c')) : inv c' :=
  ((tickWhile_yields go hfit (fun child hchild => tick_yields h child (hfit child hchild))
    hc).of_eq_ok hticks).2

/-- The leaves that a tick meets, and the contexts in which it meets them, are good ones. -/
theorem Meets.keeps (h : Upholds allowed leafOk inv) {node : Node L} {c c' : C} {l : L}
    (hmeets : node.Meets c l c') (hfit : node.Everywhere (Fit leafOk)) (hc : inv c) :
    leafOk l ∧ inv c' := by
  induction hmeets with
  | leaf l c => exact ⟨(everywhere_iff.mp hfit).1, hc⟩
  | sequence hbefore _ ih =>
    have hchildren := (everywhere_iff.mp hfit).2
    obtain ⟨hfirst, hrest⟩ := List.forall_mem_append.mp hchildren
    have hc₁ := tickWhile_keeps h hfirst hc hbefore
    exact ih (List.forall_mem_cons.mp hrest).1 hc₁
  | selector hbefore _ ih =>
    have hchildren := (everywhere_iff.mp hfit).2
    obtain ⟨hfirst, hrest⟩ := List.forall_mem_append.mp hchildren
    have hc₁ := tickWhile_keeps h hfirst hc hbefore
    exact ih (List.forall_mem_cons.mp hrest).1 hc₁
  | parallel hbefore _ ih =>
    have hchildren := (everywhere_iff.mp hfit).2
    obtain ⟨hfirst, hrest⟩ := List.forall_mem_append.mp hchildren
    have hkept := tickAll_yields (fun child hmem => tick_yields h child (hfirst child hmem)) hc
    exact ih (List.forall_mem_cons.mp hrest).1 (hkept.of_eq_ok hbefore).2
  | randomSelector hturn hchild _ ih =>
    obtain ⟨⟨hwheel, hlength⟩, hchildren⟩ := everywhere_iff.mp hfit
    have hturned := (Wheel.turn_yields h.word hwheel hlength _ hc :
      Yields allowed _ _).of_eq_ok hturn
    exact ih (hchildren _ (List.mem_of_getElem? hchild)) hturned.2.2
  | inverter _ ih => exact ih ((everywhere_iff.mp hfit).2 _ List.mem_cons_self) hc
  | constantResult _ ih => exact ih ((everywhere_iff.mp hfit).2 _ List.mem_cons_self) hc
  | completeOnce _ ih => exact ih ((everywhere_iff.mp hfit).2 _ List.mem_cons_self) hc

end Moments

end Helm.Node
