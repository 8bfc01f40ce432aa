import Helm.Proofs.Pilot.Effect
import Helm.Proofs.Pilot.Origin
import Helm.Proofs.Pilot.Run

/-!
# Helm.Proofs.Pilot.Messages

What a ship says over a run. A leaf with something to say posts it when a tick comes to it for the
first time, and never again; the other leaves leave the messages alone (`Leaf.tick_posts`). A tick
is a tour of the leaves, so it posts for those that it visits and that no earlier tick has visited
(`Agent.Spoken.tick`). `Agent.Told` are the runs with the positions visited and the messages taken
so far, and `Outfit.agent_messages` says that messages taken and messages waiting are, one for one
and in order, what the visited leaves have to say, each with the text for the key in the definition
that the leaf was fitted from (`Outfit.agent_fittings`).
-/

namespace Helm

/-- The message that an announcement comes to. -/
def Announcement.message (a : Announcement) (ship : ShipId) : Message := ⟨ship, a.text, a.color⟩

namespace Leaf

/-- What the leaf has to say. -/
def announcement? : Leaf → Option Announcement
  | showMessage a => some a
  | _ => none

/-- What a tick of the leaf posts. -/
def post? (l : Leaf) (ship : ShipId) : Option Message :=
  l.announcement?.bind fun a => if a.shown then none else some (a.message ship)

theorem tick_posts {l next : Leaf} {c c' : Context} {status : Status}
    (h : l.tick c = .ok (status, next, c')) :
    c'.memory.ship = c.memory.ship ∧
      c'.memory.messages = c.memory.messages ++ (l.post? c.memory.ship).toList ∧
      next.announcement? = l.announcement?.map fun a => { a with shown := true } := by
  have hspares := spares_of_tick h
  have hnext := ((l.tick_effect c).of_eq_ok h).2
  refine ⟨hspares.ship, ?_⟩
  cases l with
  | showMessage a =>
    obtain ⟨text, color, shown⟩ := a
    cases shown <;> cases h <;> simp [post?, announcement?, Announcement.message, Context.post,
      Context.remember]
  | findEnemy f =>
    obtain ⟨cooldown, rfl⟩ := hnext
    simp [post?, announcement?, hspares.messages]
  | attack a =>
    obtain ⟨aim, rfl⟩ := hnext
    simp [post?, announcement?, hspares.messages]
  | wait w =>
    obtain ⟨lastCompletion, lastFrame, rfl⟩ := hnext
    simp [post?, announcement?, hspares.messages]
  | action a =>
    cases hnext
    simp [post?, announcement?, hspares.messages]

end Leaf

/-- Turning a wheel takes words from the random source and does nothing else to the context. -/
theorem Context.turn_eq_ok {wheel wheel' : Wheel} {now : Float32} {index : Nat} {c c' : Context}
    (h : wheel.turn now c = .ok (index, wheel', c')) :
    c'.memory.ship = c.memory.ship ∧ c'.memory.messages = c.memory.messages := by
  have hviews : Draw.Views fun dice => c.remember fun m => { m with dice := dice } := fun _ => rfl
  have hview : wheel.turn now c = _ := Wheel.turn_view hviews wheel now c.memory.dice
  rw [h] at hview
  cases hturn : wheel.turn now c.memory.dice with
  | error e => simp [hturn] at hview
  | ok r =>
    rw [hturn] at hview
    cases hview
    exact ⟨rfl, rfl⟩

/-! ## One tick -/

namespace Node.Tour

variable {ls ticked after : List (Leaf × Nat)} {c c' : Context}

/-- A tour posts what the leaves it comes to have to say and have not said yet. -/
theorem posts (h : Tour ls c ticked after c') :
    c'.memory.ship = c.memory.ship ∧ c'.memory.messages =
      c.memory.messages ++ ticked.filterMap fun l => l.1.post? c.memory.ship := by
  induction h with
  | nil => exact ⟨rfl, (List.append_nil _).symm⟩
  | turn hturn _ ih =>
    obtain ⟨hship, hmessages⟩ := Context.turn_eq_ok hturn
    rw [ih.1, ih.2, hship, hmessages]
    exact ⟨rfl, rfl⟩
  | skip _ _ ih => exact ih
  | visit htick _ ih =>
    obtain ⟨-, htick⟩ := tick_numbered htick
    obtain ⟨hship, hmessages, -⟩ := Leaf.tick_posts htick
    rw [ih.1, ih.2, hship, hmessages]
    refine ⟨rfl, ?_⟩
    rw [List.append_assoc, List.filterMap_cons]
    cases Leaf.post? _ _ <;> rfl

/-- The leaves that a tour comes to have said what they have to say after it. -/
theorem announcements (h : Tour ls c ticked after c') (hnodup : (ls.map (·.2)).Nodup) :
    after.map (·.1.announcement?) = ls.map fun l => l.1.announcement?.map fun a =>
      { a with shown := a.shown || decide (l.2 ∈ ticked.map (·.2)) } := by
  induction h with
  | nil => rfl
  | turn _ _ ih => exact ih hnodup
  | @skip l _ ticked _ _ _ htour ih =>
    obtain ⟨hl, hnodup⟩ := List.nodup_cons.mp hnodup
    have hskipped : l.2 ∉ ticked.map (·.2) := fun hmem => hl ((htour.sublist.map _).subset hmem)
    rw [List.map_cons, List.map_cons, ih hnodup, decide_eq_false hskipped]
    simp only [Bool.or_false, Option.map_id']
  | @visit l next _ rest ticked _ _ _ _ htick _ ih =>
    obtain ⟨hl, hnodup⟩ := List.nodup_cons.mp hnodup
    obtain ⟨-, -, hnext⟩ := Leaf.tick_posts (tick_numbered htick).2
    have hself : l.2 ∈ (l :: ticked).map (·.2) := List.mem_cons_self
    have hothers : ∀ other ∈ rest,
        (other.2 ∈ (l :: ticked).map (·.2)) = (other.2 ∈ ticked.map (·.2)) := by
      intro other hother
      have hne : other.2 ≠ l.2 := fun heq => hl (List.mem_map.mpr ⟨other, hother, heq⟩)
      simp only [List.map_cons, List.mem_cons, hne, false_or]
    rw [List.map_cons, List.map_cons, ih hnodup, hnext, decide_eq_true hself]
    simp only [Bool.or_true]
    refine congrArg _ (List.map_congr_left fun other hother => ?_)
    simp only [hothers other hother]

end Node.Tour

/-! ## Runs -/

theorem eraseDups_of_nodup {l : List Nat} (h : l.Nodup) : l.eraseDups = l := by
  induction l with
  | nil => rfl
  | cons a rest ih =>
    obtain ⟨ha, hrest⟩ := List.nodup_cons.mp h
    have hkept : rest.filter (fun b => !b == a) = rest := by
      refine List.filter_eq_self.mpr fun b hb => ?_
      have hne : b ≠ a := fun heq => ha (heq ▸ hb)
      simp [hne]
    rw [List.eraseDups_cons, hkept, ih hrest]

theorem nodup_eraseDups (l : List Nat) : l.eraseDups.Nodup := by
  induction hlength : l.length using Nat.strongRecOn generalizing l with
  | ind length ih =>
    cases l with
    | nil => exact .nil
    | cons a rest =>
      have hshorter : (rest.filter (fun b => !b == a)).length < length := by
        rw [← hlength]
        exact Nat.lt_succ_of_le (List.length_filter_le _ _)
      rw [List.eraseDups_cons]
      refine List.nodup_cons.mpr ⟨?_, ih _ hshorter _ rfl⟩
      simp [List.mem_eraseDups]

namespace Agent

/-- The context in which a tick evaluates the tree. -/
def opening (a : Agent) (timeStep : Float32) : Context :=
  (a.context.advance timeStep).command Controls.beginTick

/-- The second agent is what a run makes of the first, on which the ticks come to the leaves at the
given positions, in order, and the given messages are taken. -/
inductive Told (a : Agent) : List Nat → List Message → Agent → Prop where
  | refl : Told a [] [] a
  | tick {visited : List Nat} {taken : List Message} {b c : Agent} {timeStep : Float32}
      {status : Status} : Told a visited taken b → b.tick timeStep = .ok (status, c) →
      Told a (visited ++ b.root.visited (b.opening timeStep)) taken c
  | inScene {visited : List Nat} {taken : List Message} {b : Agent} (f : Scene → Scene) :
      Told a visited taken b → Told a visited taken (b.inScene f)
  | takeMessages {visited : List Nat} {taken : List Message} {b : Agent} :
      Told a visited taken b → Told a visited (taken ++ b.takeMessages.1) b.takeMessages.2

/-- What the leaf at a position has to say. -/
def speech? (a : Agent) (position : Nat) : Option Message :=
  (a.root.leaves[position]?.bind Leaf.announcement?).map (·.message a.context.memory.ship)

/-- What a run keeps: the leaves that have been visited have said what they have to say. -/
structure Spoken (a : Agent) (visited : List Nat) (taken : List Message) (b : Agent) : Prop where
  ship : b.context.memory.ship = a.context.memory.ship
  messages : taken ++ b.context.memory.messages = visited.eraseDups.filterMap a.speech?
  leaves : ∀ position, b.root.leaves[position]?.map Leaf.announcement? =
    a.root.leaves[position]?.map fun l => (Leaf.announcement? l).map fun m =>
      { m with shown := decide (position ∈ visited) }

variable {a b c : Agent} {visited : List Nat} {taken : List Message}

/-- A leaf posts when it is visited for the first time. -/
theorem Spoken.post? (h : a.Spoken visited taken b) {l : Leaf} {position : Nat}
    (hl : b.root.leaves[position]? = some l) :
    l.post? b.context.memory.ship = if position ∈ visited then none else a.speech? position := by
  have hleaf := h.leaves position
  rw [hl] at hleaf
  rw [Leaf.post?, h.ship, speech?]
  cases hstart : a.root.leaves[position]? with
  | none => simp [hstart] at hleaf
  | some first =>
    rw [hstart] at hleaf
    simp only [Option.map_some, Option.some.injEq] at hleaf
    rw [hleaf, Option.bind_some]
    cases first.announcement? with
    | none => simp
    | some m => simp [Announcement.message]

theorem Spoken.tick (h : a.Spoken visited taken b) {timeStep : Float32} {status : Status}
    (htick : b.tick timeStep = .ok (status, c)) :
    a.Spoken (visited ++ b.root.visited (b.opening timeStep)) taken c := by
  obtain ⟨⟨s, root, context⟩, hroot, htick⟩ := bind_eq_ok.mp htick
  cases htick
  have hroot : b.root.tick (b.opening timeStep) = .ok (status, root, context) := hroot
  obtain ⟨ticked, after, htour, hvisited, hleaves⟩ := Node.tour_of_tick hroot
  have hnumbers : (b.root.leaves.zipIdx.map (·.2)).Nodup := by
    rw [List.zipIdx_map_snd]
    exact List.nodup_range'
  have hnow := (htour.sublist.map (·.2)).nodup hnumbers
  obtain ⟨hship, hmessages⟩ := htour.posts
  have hposts : (ticked.filterMap fun l => l.1.post? b.context.memory.ship) =
      ((ticked.map (·.2)).removeAll visited).filterMap a.speech? := by
    rw [List.removeAll, List.filterMap_filter, List.filterMap_map]
    refine List.filterMap_congr fun l hl => ?_
    have hmem := htour.sublist.subset hl
    rw [h.post? (List.mem_zipIdx_iff_getElem?.mp hmem)]
    simp
  refine ⟨hship.trans h.ship, ?_, fun position => ?_⟩
  · have hmessages : context.memory.messages = b.context.memory.messages ++
        ticked.filterMap fun l => l.1.post? b.context.memory.ship := hmessages
    have hfresh : ((ticked.map (·.2)).removeAll visited).Nodup := hnow.filter _
    dsimp only
    rw [hmessages, ← List.append_assoc, h.messages, hposts, hvisited, List.eraseDups_append,
      eraseDups_of_nodup hfresh, List.filterMap_append]
  · have hafter := congrArg (·[position]?) (htour.announcements hnumbers)
    simp only [List.getElem?_map, List.getElem?_zipIdx, Option.map_map, Nat.zero_add] at hafter
    have hbefore := h.leaves position
    dsimp only
    rw [hleaves, hvisited, List.getElem?_map, Option.map_map]
    refine hafter.trans ?_
    cases hl : b.root.leaves[position]? with
    | none =>
      rw [hl] at hbefore
      simpa using hbefore
    | some l =>
      cases hfirst : a.root.leaves[position]? with
      | none => simp [hl, hfirst] at hbefore
      | some first =>
        rw [hl, hfirst] at hbefore
        simp only [Option.map_some, Option.some.injEq] at hbefore
        have hvisits : decide (position ∈ visited ++ ticked.map (·.2)) =
            (decide (position ∈ visited) || decide (position ∈ ticked.map (·.2))) := by
          rw [← Bool.decide_or]
          exact decide_eq_decide.mpr List.mem_append
        simp only [Option.map_some, Function.comp_apply, hbefore, Option.map_map, hvisits]
        rfl

theorem Told.spoken (hrun : a.Told visited taken b) (hmessages : a.context.memory.messages = [])
    (hfresh : ∀ l ∈ a.root.leaves, ∀ m, Leaf.announcement? l = some m → m.shown = false) :
    a.Spoken visited taken b := by
  induction hrun with
  | refl =>
    refine ⟨rfl, hmessages, fun position => ?_⟩
    cases hl : a.root.leaves[position]? with
    | none => rfl
    | some l =>
      cases hm : l.announcement? with
      | none => simp [hm]
      | some m =>
        have hshown := hfresh l (List.mem_of_getElem? hl) m hm
        simp [hm, ← hshown]
  | tick _ htick ih => exact ih.tick htick
  | inScene f _ ih => exact ⟨ih.ship, ih.messages, ih.leaves⟩
  | takeMessages _ ih =>
    exact ⟨ih.ship, (List.append_nil _).trans ih.messages, ih.leaves⟩

/-- The positions that have been visited and have something to say, in the order of their first
visits. -/
def speakers (a : Agent) (visited : List Nat) : List Nat :=
  visited.eraseDups.filter fun position => (a.speech? position).isSome

theorem isSome_speech? (a : Agent) (position : Nat) : (a.speech? position).isSome = true ↔
    ∃ m, a.root.leaves[position]? = some (.showMessage m) := by
  rw [speech?]
  cases a.root.leaves[position]? with
  | none => simp
  | some l => cases l <;> simp [Leaf.announcement?]

theorem mem_speakers {position : Nat} : position ∈ a.speakers visited ↔
    position ∈ visited ∧ ∃ m, a.root.leaves[position]? = some (.showMessage m) := by
  rw [speakers, List.mem_filter, List.mem_eraseDups, isSome_speech?]

theorem nodup_speakers (a : Agent) (visited : List Nat) : (a.speakers visited).Nodup :=
  (nodup_eraseDups visited).filter _

/-- There are no more speakers than there are leaves with something to say. -/
theorem length_speakers_le (a : Agent) (visited : List Nat) : (a.speakers visited).length ≤
    (a.root.leaves.filter fun l => (Leaf.announcement? l).isSome).length := by
  let speaking := a.root.leaves.zipIdx.filter fun l => (Leaf.announcement? l.1).isSome
  have hsub : a.speakers visited ⊆ speaking.map (·.2) := by
    intro position hposition
    obtain ⟨-, m, hm⟩ := mem_speakers.mp hposition
    refine List.mem_map.mpr ⟨(.showMessage m, position), List.mem_filter.mpr ⟨?_, rfl⟩, rfl⟩
    exact List.mem_zipIdx_iff_getElem?.mpr hm
  have hlength := (a.nodup_speakers visited).length_le_of_subset hsub
  have hfirst : speaking.map (·.1) =
      a.root.leaves.filter fun l => (Leaf.announcement? l).isSome := by
    have hzip : (a.root.leaves.zipIdx.map (·.1)) = a.root.leaves := List.zipIdx_map_fst _ _
    rw [← hzip, List.filter_map]
    rfl
  rw [← hfirst, List.length_map]
  rwa [List.length_map] at hlength

end Agent

namespace Outfit

/-- What a leaf of the kind has to say, if anything, has not been said, and is the text for the key
that the kind gives. -/
def Localized (o : Outfit) (kind : LeafKind) (l : Leaf) : Prop :=
  ∀ m, l.announcement? = some m → m.shown = false ∧
    ∃ key, kind = .showMessage key m.color ∧ m.text = o.phrasebook.localize key

theorem localized_fit (o : Outfit) (roll : Float32) (kind : LeafKind) :
    Node.Fit (o.Localized kind) (o.fit roll kind) := by
  cases kind with
  | showMessage text color =>
    rintro m ⟨⟩
    exact ⟨rfl, text, rfl, rfl⟩
  | undefined => trivial
  | selectWeapon => exact armed_cases trivial nofun
  | chargeWeapons => exact armed_cases trivial nofun
  | useRecoil => exact armed_cases trivial nofun
  | activateDevice => exact equipped_cases trivial nofun
  | defendWithFrontalShield => exact equipped_cases trivial nofun
  | trackControllableAmmo => exact capable_cases trivial fun _ => nofun
  | spawnDrones => exact capable_cases trivial fun _ => nofun
  | _ => nofun

/-- Each leaf of an agent's tree has been fitted from a definition, which is at the same position
among those that leaves were fitted from. -/
theorem agent_fittings (o : Outfit) {scene : Scene} {tree : TreeDefinition}
    {unseeded : Purpose → Dice} {a : Agent} (ha : o.agent scene tree unseeded = .ok a) :
    a.context = .create o.ship o.loadout scene (o.dice unseeded .runtime) ∧
      ∃ visits after, o.Builds (.tree tree) (o.builder unseeded) visits (.ok (a.root, after)) ∧
        (fittings visits).map (·.2) = a.root.leaves ∧
        ∀ (position : Nat) l, a.root.leaves[position]? = some l → ∃ r kind scope,
          (fittings visits)[position]? = some (.leaf r kind, l) ∧
            o.treeSources tree (.leaf r kind) scope ∧ o.Localized kind l := by
  obtain ⟨⟨root, after⟩, hroot, ha⟩ := bind_eq_ok.mp ha
  cases ha
  obtain ⟨visits, hbuilds, hleaves, hfitted⟩ := o.fittings_of_buildTree tree rfl hroot
  refine ⟨rfl, visits, after, hbuilds, hleaves, fun position l hl => ?_⟩
  obtain ⟨r, kind, roll, scope, hfitting, hfit, hsource⟩ := hfitted position l hl
  have hlocalized := o.localized_fit roll kind
  rw [hfit] at hlocalized
  exact ⟨r, kind, scope, hfitting, hsource, hlocalized⟩

theorem map_filter_isSome {α β : Type} (f : α → Option β) (l : List α) :
    (l.filter fun x => (f x).isSome).map f = (l.filterMap f).map some := by
  induction l with
  | nil => rfl
  | cons x rest ih => cases hx : f x <;> simp [hx, ih]

/-- Over every run, what has been taken and what is still waiting to be taken are the messages of
the leaves that have been visited and have something to say, one message of each, in the order of
their first visits. So there are at most as many as there are such leaves. Each message is the
ship's own and has the text for the key in the definition that its leaf was fitted from when the
tree was built, which is one that the tree mentions. -/
theorem agent_messages (o : Outfit) (scene : Scene) (tree : TreeDefinition)
    (unseeded : Purpose → Dice) {a b : Agent} {visited : List Nat} {taken : List Message}
    (ha : o.agent scene tree unseeded = .ok a) (hrun : a.Told visited taken b) :
    (a.speakers visited).map a.speech? = (taken ++ b.context.memory.messages).map some ∧
      ((a.speakers visited).Nodup ∧ ∀ position, position ∈ a.speakers visited ↔
        position ∈ visited ∧ ∃ m, a.root.leaves[position]? = some (.showMessage m)) ∧
      (taken ++ b.context.memory.messages).length ≤
        (a.root.leaves.filter fun l => (Leaf.announcement? l).isSome).length ∧
      ∃ visits after, o.Builds (.tree tree) (o.builder unseeded) visits (.ok (a.root, after)) ∧
        (fittings visits).map (·.2) = a.root.leaves ∧
        ∀ position message, a.speech? position = some message →
          message.ship = o.ship ∧ ∃ r key scope l,
            (fittings visits)[position]? = some (.leaf r (.showMessage key message.color), l) ∧
              o.treeSources tree (.leaf r (.showMessage key message.color)) scope ∧
              message.text = o.phrasebook.localize key := by
  obtain ⟨hcontext, visits, after, hbuilds, hleaves, hfitted⟩ := o.agent_fittings ha
  have hmessages : a.context.memory.messages = [] := by rw [hcontext]; rfl
  have hspoken := hrun.spoken hmessages fun l hl m hm => by
    obtain ⟨position, hl⟩ := List.mem_iff_getElem?.mp hl
    obtain ⟨r, kind, scope, -, -, hlocalized⟩ := hfitted position l hl
    exact (hlocalized m hm).1
  have hsaid : (a.speakers visited).map a.speech? =
      (taken ++ b.context.memory.messages).map some := by
    rw [hspoken.messages]
    exact map_filter_isSome _ _
  refine ⟨hsaid, ⟨a.nodup_speakers visited, fun position => Agent.mem_speakers⟩, ?_,
    visits, after, hbuilds, hleaves, fun position message hspeech => ?_⟩
  · have hlength := congrArg List.length hsaid
    rw [List.length_map, List.length_map] at hlength
    exact hlength ▸ a.length_speakers_le visited
  · rw [Agent.speech?] at hspeech
    obtain ⟨m, hm, rfl⟩ := Option.map_eq_some_iff.mp hspeech
    obtain ⟨l, hl, hm⟩ := Option.bind_eq_some_iff.mp hm
    obtain ⟨r, kind, scope, hfitting, hsource, hlocalized⟩ := hfitted position l hl
    obtain ⟨-, key, rfl, htext⟩ := hlocalized m hm
    have hship : a.context.memory.ship = o.ship := by rw [hcontext]; rfl
    exact ⟨hship, r, key, scope, l, hfitting, hsource, htext⟩

/-- A ship without weapons. -/
def herald : Outfit := { ship := ⟨1⟩, loadout := {} }

/-- A leaf that is visited twice posts once, although its message has been taken in between. -/
theorem agent_messages_herald : ∃ a b : Agent,
    let greeting : Message := ⟨⟨1⟩, herald.phrasebook.localize "greeting", none⟩
    herald.agent {} { root := some (.leaf .always (.showMessage "greeting" none)) } default =
        .ok a ∧
      a.Told [0, 0] [greeting] b ∧
      (a.speakers [0, 0]).map a.speech? = ([greeting] ++ b.context.memory.messages).map some ∧
      ([greeting] ++ b.context.memory.messages).length ≤ 1 := by
  have hfinite : ∀ x ∈ (LeafKind.showMessage "greeting" none).parameters, x.isFinite = true :=
    nofun
  let a : Agent :=
    { context := .create herald.ship herald.loadout {} (herald.dice default .runtime)
      root := .leaf (.showMessage ⟨herald.phrasebook.localize "greeting", none, false⟩) }
  have ha : herald.agent {}
      { root := some (.leaf .always (.showMessage "greeting" none)) } default = .ok a := by
    rw [agent, herald.buildTree_leaf _ _ hfinite]
    rfl
  obtain ⟨b, hb⟩ : ∃ b, a.tick 1 = .ok (.success, b) := ⟨_, rfl⟩
  obtain ⟨c, hc⟩ : ∃ c, b.takeMessages.2.tick 1 = .ok (.success, c) := by
    cases hb
    exact ⟨_, rfl⟩
  have hrun := ((Agent.Told.refl.tick hb).takeMessages).tick hc
  cases hb
  obtain ⟨hsaid, -, hlength, -⟩ := herald.agent_messages {} _ default ha hrun
  exact ⟨a, c, ha, hrun, hsaid, hlength⟩

end Outfit
end Helm
