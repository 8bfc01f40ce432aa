import Helm.Proofs.Definition.Search
import Mathlib.Data.List.Cycle

/-!
# Helm.Proofs.Definition.Cycles

The cycles that a library reports are the elementary cycles of its graph of references
(`validate_cycles`). A cycle is one up to rotation; it is reported as the path from its least name
to itself, which is one path for each cycle (`exists_leastPath`, `leastPath_unique`).

* `Walk.elementary`: where a search meets its own path again, the part of the path from there on is
  an elementary cycle.
* `leastPath_of_closes`: what the search reports is a cycle, from its least name on.
* `LeastPath.closes`: the search from the least name of a cycle goes all the way around.
-/

namespace Helm

/-- The cycle that an issue is about, up to rotation. -/
def TreeIssue.cycle? : TreeIssue → Option (Cycle String)
  | subTreeCycle path => some path.dropLast
  | _ => none

namespace TreeLibrary

/-- Different names each of which refers to the next, and the last to the first. -/
structure Elementary (library : TreeLibrary) (c : Cycle String) : Prop where
  nonempty : c ≠ Cycle.nil
  nodup : c.Nodup
  chain : c.Chain library.Refers

/-- An elementary cycle that starts at its least name. -/
structure LeastPath (library : TreeLibrary) (first : String) (rest : List String) : Prop where
  elementary : library.Elementary (first :: rest : List String)
  least : ∀ name ∈ rest, first < name

/-- The path of a search: it has come to its last name by references, without repeating a name. -/
structure Walk (library : TreeLibrary) (path : List String) (last : String) : Prop where
  nodup : path.Nodup
  chain : path.IsChain library.Refers
  ends : path.getLast? = some last
  held : ∀ name ∈ path, library.contains name = true

variable {library : TreeLibrary} {path rest : List String} {first last target : String}

theorem isChain_snoc (h : path.IsChain library.Refers) (hends : path.getLast? = some last)
    (href : library.Refers last target) : (path ++ [target]).IsChain library.Refers := by
  refine List.isChain_append.mpr ⟨h, List.isChain_singleton target, ?_⟩
  intro x hx y hy
  rw [hends] at hx
  cases hx; cases hy
  exact href

theorem refers_of_isChain {after : List String}
    (h : (path ++ target :: after).IsChain library.Refers) (hends : path.getLast? = some last) :
    library.Refers last target :=
  (List.isChain_append.mp h).2.2 last hends target rfl

theorem walk_start (h : library.contains first = true) : library.Walk [first] first :=
  ⟨List.nodup_singleton first, List.isChain_singleton first, rfl, by simpa using h⟩

theorem Walk.refers (hw : library.Walk path last) (href : target ∈ library.referencesOf last)
    (hopen : target ∈ path) : library.Refers last target :=
  refers_iff.mpr ⟨href, hw.held target hopen⟩

theorem Walk.follow (hw : library.Walk path last) (h : library.Refers last target)
    (hopen : target ∉ path) : library.Walk (path ++ [target]) target := by
  refine ⟨nodup_snoc hw.nodup hopen, isChain_snoc hw.chain hw.ends h, List.getLast?_concat, ?_⟩
  intro name hname
  rcases List.mem_append.mp hname with hname | hname
  · exact hw.held name hname
  · exact List.mem_singleton.mp hname ▸ (refers_iff.mp h).2

theorem Walk.elementary (hw : library.Walk path last) (h : library.Refers last target)
    {before after : List String} (hpath : path = before ++ target :: after) :
    library.Elementary (target :: after : List String) := by
  subst hpath
  have hends : (target :: after).getLast? = some last := by
    rw [← hw.ends, List.getLast?_append_cons]
  refine ⟨by simp, ?_, ?_⟩
  · exact Cycle.nodup_coe_iff.mpr (hw.nodup.sublist (List.sublist_append_right before _))
  · rw [Cycle.chain_coe_cons, ← List.cons_append]
    exact isChain_snoc (List.isChain_append.mp hw.chain).2.1 hends h

/-- A search that meets its own path again closes the part of the path from there on. -/
theorem closing_of_mem (h : target ∈ path) :
    ∃ before after, path = before ++ target :: after ∧
      path.dropWhile (· ≠ target) = target :: after := by
  obtain ⟨before, after, rfl, hbefore⟩ := List.eq_append_cons_of_mem h
  refine ⟨before, after, rfl, ?_⟩
  rw [List.dropWhile_append_of_pos]
  · rw [List.dropWhile_cons_of_neg (by simp)]
  · intro name hname
    have : name ≠ target := fun heq => hbefore (heq ▸ hname)
    simpa using this

theorem startsLeast_cons (hnodup : (first :: rest).Nodup) :
    startsLeast (first :: rest) = true ↔ ∀ name ∈ rest, first < name := by
  simp only [startsLeast, List.all_eq_true, Bool.not_eq_true', decide_eq_false_iff_not]
  constructor
  · intro h name hname
    have hne : first ≠ name := fun heq => (List.nodup_cons.mp hnodup).1 (heq ▸ hname)
    exact Std.lt_of_le_of_ne (h name hname) hne
  · intro h name hname
    exact String.lt_asymm (h name hname)

theorem leastPath_of_closes {closed : List String} (h : library.Closes path last closed)
    (hw : library.Walk path last) :
    ∃ first rest, library.LeastPath first rest ∧ closed = first :: (rest ++ [first]) := by
  induction h with
  | @close path last target href hopen hleast =>
    obtain ⟨before, after, hpath, hclosing⟩ := closing_of_mem hopen
    have hcycle := hw.elementary (hw.refers href hopen) hpath
    rw [hclosing, startsLeast_cons (Cycle.nodup_coe_iff.mp hcycle.nodup)] at hleast
    exact ⟨target, after, ⟨hcycle, hleast⟩, by rw [closing, hclosing, List.cons_append]⟩
  | follow href hopen hheld _ ih => exact ih (hw.follow (refers_iff.mpr ⟨href, hheld⟩) hopen)

theorem LeastPath.chain (h : library.LeastPath first rest) :
    (first :: rest ++ [first]).IsChain library.Refers :=
  (Cycle.chain_coe_cons _ _ _).mp h.elementary.chain

theorem LeastPath.nodup (h : library.LeastPath first rest) : (first :: rest).Nodup :=
  Cycle.nodup_coe_iff.mp h.elementary.nodup

/-- The search that has come to some point of a cycle goes on around it. -/
theorem LeastPath.closes (h : library.LeastPath first rest) {ahead : List String}
    (hsplit : first :: rest = path ++ ahead) (hends : path.getLast? = some last) :
    library.Closes path last (first :: (rest ++ [first])) := by
  have hchain := h.chain
  have hnodup := h.nodup
  induction ahead generalizing path last with
  | nil =>
    rw [List.append_nil] at hsplit
    subst hsplit
    have href := refers_iff.mp (refers_of_isChain hchain hends)
    have hround : (first :: rest).dropWhile (· ≠ first) = first :: rest :=
      List.dropWhile_cons_of_neg (by simp)
    have hclose := Closes.close href.1 List.mem_cons_self
      (hround ▸ (startsLeast_cons hnodup).mpr h.least)
    rw [closing, hround] at hclose
    exact hclose
  | cons next ahead ih =>
    rw [hsplit, List.append_assoc, List.cons_append] at hchain
    have href := refers_iff.mp (refers_of_isChain hchain hends)
    rw [hsplit] at hnodup
    have hopen : next ∉ path := fun hmem =>
      (List.nodup_append.mp hnodup).2.2 next hmem next List.mem_cons_self rfl
    exact .follow href.1 hopen href.2 (ih (by simp [hsplit]) List.getLast?_concat)

theorem dropLast_round (first : String) (rest : List String) :
    (first :: (rest ++ [first])).dropLast = first :: rest := by
  rw [← List.cons_append, List.dropLast_concat]

theorem mem_cycles_iff {closed : List String} :
    closed ∈ library.cycles ↔
      ∃ first rest, library.LeastPath first rest ∧ closed = first :: (rest ++ [first]) := by
  rw [mem_cycles]
  constructor
  · rintro ⟨name, hname, h⟩
    exact leastPath_of_closes h (walk_start hname)
  · rintro ⟨first, rest, h, rfl⟩
    obtain ⟨last, hlast⟩ := Option.ne_none_iff_exists'.mp
      (mt List.getLast?_eq_none_iff.mp (List.cons_ne_nil first rest))
    have href := refers_of_isChain h.chain hlast
    exact ⟨first, (refers_iff.mp href).2, h.closes rfl rfl⟩

/-! ## One path for each cycle -/

theorem exists_least {names : List String} (h : names ≠ []) :
    ∃ least ∈ names, ∀ name ∈ names, least ≤ name := by
  induction names with
  | nil => exact absurd rfl h
  | cons name rest ih =>
    cases rest with
    | nil => exact ⟨name, List.mem_cons_self, by simp⟩
    | cons next rest =>
      obtain ⟨least, hmem, hleast⟩ := ih (List.cons_ne_nil _ _)
      rcases String.le_total name least with hle | hle
      · refine ⟨name, List.mem_cons_self, List.forall_mem_cons.mpr ⟨String.le_refl name, ?_⟩⟩
        exact fun other hother => String.le_trans hle (hleast other hother)
      · exact ⟨least, List.mem_cons_of_mem _ hmem, List.forall_mem_cons.mpr ⟨hle, hleast⟩⟩

theorem exists_leastPath {c : Cycle String} (h : library.Elementary c) :
    ∃ first rest, library.LeastPath first rest ∧ c = (first :: rest : List String) := by
  induction c using Quotient.inductionOn with
  | h names =>
    have hnames : names ≠ [] := fun hnil => h.nonempty (congrArg _ hnil)
    obtain ⟨first, hmem, hleast⟩ := exists_least hnames
    obtain ⟨before, after, rfl⟩ := List.append_of_mem hmem
    have hrotate : (before ++ first :: after : Cycle String) =
        (first :: (after ++ before) : List String) :=
      Cycle.coe_eq_coe.mpr List.isRotated_append
    have hcycle : library.Elementary (first :: (after ++ before) : List String) := hrotate ▸ h
    refine ⟨first, after ++ before, ⟨hcycle, fun name hname => ?_⟩, hrotate⟩
    have hne : first ≠ name := fun heq =>
      (List.nodup_cons.mp (Cycle.nodup_coe_iff.mp hcycle.nodup)).1 (heq ▸ hname)
    refine Std.lt_of_le_of_ne (hleast name ?_) hne
    rcases List.mem_append.mp hname with hname | hname
    · exact List.mem_append_right _ (List.mem_cons_of_mem _ hname)
    · exact List.mem_append_left _ hname

theorem leastPath_unique {first' : String} {rest' : List String}
    (h : library.LeastPath first rest) (h' : library.LeastPath first' rest')
    (heq : (first :: rest : Cycle String) = (first' :: rest' : List String)) :
    first = first' ∧ rest = rest' := by
  have hrotated := Cycle.coe_eq_coe.mp heq
  have hfirst : first = first' := by
    have hmem : first ∈ first' :: rest' := hrotated.mem_iff.mp List.mem_cons_self
    have hmem' : first' ∈ first :: rest := hrotated.mem_iff.mpr List.mem_cons_self
    rcases List.mem_cons.mp hmem with hfirst | hin
    · exact hfirst
    · rcases List.mem_cons.mp hmem' with hfirst | hin'
      · exact hfirst.symm
      · exact absurd (h.least first' hin') (String.lt_asymm (h'.least first hin))
  subst hfirst
  refine ⟨rfl, ?_⟩
  -- a rotation by some but not all names would find the first one again among the others
  obtain ⟨n, hn, hrotate⟩ := List.isRotated_iff_mod.mp hrotated
  rw [List.rotate_eq_drop_append_take hn] at hrotate
  cases n with
  | zero => simpa using hrotate
  | succ n =>
    rw [List.drop_succ_cons, List.take_succ_cons] at hrotate
    have hrest := List.take_append_drop n rest
    cases hdrop : rest.drop n with
    | nil =>
      rw [hdrop, List.append_nil] at hrest
      rw [hdrop, hrest, List.nil_append] at hrotate
      exact (List.cons.inj hrotate).2
    | cons name _ =>
      rw [hdrop, List.cons_append] at hrotate
      have hname : name ∈ rest := by
        rw [← hrest, hdrop]
        exact List.mem_append_right _ List.mem_cons_self
      rw [(List.cons.inj hrotate).1] at hname
      exact absurd hname (List.nodup_cons.mp h.nodup).1

/-! ## The cycles among the issues -/

theorem cycle?_of_treeIssues {name : String} {tree : TreeDefinition} {issue : TreeIssue}
    (h : issue ∈ library.treeIssues name tree) : issue.cycle? = none := by
  rcases List.mem_append.mp h with h | h
  · split at h
    · rw [List.mem_singleton.mp h]; rfl
    · cases h
  · obtain ⟨missing, -, rfl⟩ := List.mem_map.mp h
    rfl

theorem subTreeCycle_mem_validate :
    TreeIssue.subTreeCycle path ∈ library.validate ↔ path ∈ library.cycles := by
  rw [validate, List.mem_append]
  constructor
  · rintro (h | h)
    · obtain ⟨entry, -, h⟩ := List.mem_flatMap.mp h
      cases cycle?_of_treeIssues h
    · obtain ⟨p, hp, heq⟩ := List.mem_map.mp h
      cases heq
      exact hp
  · exact fun h => .inr (List.mem_map_of_mem h)

theorem filterMap_validate :
    library.validate.filterMap TreeIssue.cycle? =
      library.cycles.map fun path => (path.dropLast : Cycle String) := by
  have htrees : (library.entries.flatMap fun entry => library.treeIssues entry.1 entry.2).filterMap
      TreeIssue.cycle? = [] := by
    refine List.filterMap_eq_nil_iff.mpr fun issue h => ?_
    obtain ⟨entry, -, h⟩ := List.mem_flatMap.mp h
    exact cycle?_of_treeIssues h
  rw [validate, List.filterMap_append, htrees, List.nil_append, List.filterMap_map]
  exact congrFun List.filterMap_eq_map' library.cycles

/-- The cycles reported are the elementary cycles of the graph of references, each once, and each
as the path from its least name to itself. The search ends by itself, whatever the library. -/
theorem validate_cycles (library : TreeLibrary) :
    (library.validate.filterMap TreeIssue.cycle?).Nodup ∧
      (∀ c, c ∈ library.validate.filterMap TreeIssue.cycle? ↔ library.Elementary c) ∧
      (∀ path, TreeIssue.subTreeCycle path ∈ library.validate →
        ∃ first rest, path = first :: (rest ++ [first]) ∧ ∀ name ∈ rest, first < name) ∧
      library.cycles = library.keys.foldl
        (fun reported name => library.exploreCycles [name] name reported) [] := by
  rw [filterMap_validate]
  refine ⟨?_, fun c => ?_, fun path hpath => ?_, library.cycles_eq_explore⟩
  · refine List.Nodup.map_on ?_ library.nodup_cycles
    intro p hp q hq heq
    obtain ⟨first, rest, h, rfl⟩ := mem_cycles_iff.mp hp
    obtain ⟨first', rest', h', rfl⟩ := mem_cycles_iff.mp hq
    rw [dropLast_round, dropLast_round] at heq
    obtain ⟨rfl, rfl⟩ := leastPath_unique h h' heq
    rfl
  · rw [List.mem_map]
    constructor
    · rintro ⟨p, hp, rfl⟩
      obtain ⟨first, rest, h, rfl⟩ := mem_cycles_iff.mp hp
      rw [dropLast_round]
      exact h.elementary
    · intro hc
      obtain ⟨first, rest, h, rfl⟩ := exists_leastPath hc
      exact ⟨_, mem_cycles_iff.mpr ⟨first, rest, h, rfl⟩, by rw [dropLast_round]⟩
  · obtain ⟨first, rest, h, rfl⟩ := mem_cycles_iff.mp (subTreeCycle_mem_validate.mp hpath)
    exact ⟨first, rest, rfl, h.least⟩

end TreeLibrary

end Helm
