import Helm.Proofs.Evaluation
import Helm.Random.Draw

/-!
# Helm.Proofs.Random.Draw

Drawn indices stay below their bound, whatever the words are. A property of the source that every
word keeps (`Steady`) still holds after a draw.

* `scaled_lt`: a candidate that is accepted or given up on is below the bound either way.
* `index_yields`, `weighted_lt`: an index out of a list that is not empty is never abandoned and
  lies in the list.
-/

namespace Helm.Draw

open WordSource

variable {G : Type} [WordSource G] {inv : G → Prop} {g : G}

/-- Taking a word keeps the property of the source. -/
def Steady (inv : G → Prop) : Prop := ∀ g, inv g → inv (nextWord g).2

theorem wide_lt (g : G) : (wide g).1 < UInt64.size := by
  have hlow := (nextWord g).1.toNat_lt
  have hhigh := (nextWord (nextWord g).2).1.toNat_lt
  simp only [wide, UInt64.size, UInt32.size]
  omega

theorem wide_steady (hinv : Steady inv) (hg : inv g) : inv (wide g).2 := hinv _ (hinv _ hg)

omit [WordSource G] in
theorem scaled_lt {candidate : G → Nat × G} {size n : Nat} (zone tries : Nat)
    (hcandidate : ∀ g, (candidate g).1 < size) (hn : 0 < n) :
    (scaled candidate size n zone tries g).1 < n := by
  have hquotient : ∀ g, (candidate g).1 * n / size < n := by
    intro g
    rw [Nat.div_lt_iff_lt_mul (Nat.lt_of_le_of_lt (Nat.zero_le _) (hcandidate g)), Nat.mul_comm]
    exact Nat.mul_lt_mul_of_pos_left (hcandidate g) hn
  induction tries generalizing g with
  | zero => exact hquotient g
  | succ tries ih =>
    rw [scaled]
    dsimp only
    split
    · exact hquotient g
    · exact ih

omit [WordSource G] in
theorem scaled_steady {candidate : G → Nat × G} {size n : Nat} (zone tries : Nat)
    (hcandidate : ∀ g, inv g → inv (candidate g).2) (hg : inv g) :
    inv (scaled candidate size n zone tries g).2 := by
  induction tries generalizing g with
  | zero => exact hcandidate g hg
  | succ tries ih =>
    rw [scaled]
    dsimp only
    split
    · exact hcandidate g hg
    · exact ih (hcandidate g hg)

/-- There is an index below every bound but zero. -/
theorem index_yields {allowed : Fault → Prop} (hinv : Steady inv) {n : Nat} (hn : 0 < n)
    (hg : inv g) : Yields allowed (fun r => r.1 < n ∧ inv r.2) (index n g) := by
  rw [index, if_neg (Nat.ne_of_gt hn)]
  exact ⟨scaled_lt _ _ wide_lt hn, scaled_steady _ _ (fun _ => wide_steady hinv) hg⟩

theorem bucket_lt {weights : List Nat} (h : weights ≠ []) (value : Nat) :
    bucket weights value < weights.length := by
  match weights, h with
  | [_], _ => exact Nat.one_pos
  | w :: v :: ws, _ =>
    have ih := bucket_lt (List.cons_ne_nil v ws) (value - w)
    rw [bucket, List.length_cons]
    · split
      · exact Nat.succ_lt_succ ih
      · exact Nat.succ_pos _
    · exact List.cons_ne_nil v ws

theorem weighted_lt {weights : List Nat} (h : weights ≠ []) (g : G) :
    (weighted weights g).1 < weights.length :=
  bucket_lt h _

theorem weighted_steady (hinv : Steady inv) (weights : List Nat) (hg : inv g) :
    inv (weighted weights g).2 := by
  rw [weighted]
  exact scaled_steady _ _ (fun g hg => hinv g hg) hg

end Helm.Draw
