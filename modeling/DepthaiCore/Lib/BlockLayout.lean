import Mathlib.Data.List.Basic
import Mathlib.Data.List.Pairwise
import Mathlib.Data.Nat.Basic

/-!
# Blocks laid out one after another in a storage

Every block has its contents and an alignment. A block is appended to the storage after as much
filling as takes the length of the storage to a multiple of the alignment. Where a block comes to
lie depends on the lengths of the blocks before it only.
-/

namespace BlockLayout

/-- How far `n` is from the next multiple of `alignment`. -/
def padding (alignment n : ℕ) : ℕ :=
  if n % alignment = 0 then 0 else alignment - n % alignment

theorem dvd_add_padding {alignment : ℕ} (ha : 0 < alignment) (n : ℕ) :
    alignment ∣ n + padding alignment n := by
  rw [padding]
  split
  · exact Nat.dvd_of_mod_eq_zero ‹_›
  · have hlt := Nat.mod_lt n ha
    have hdiv := Nat.div_add_mod n alignment
    refine ⟨n / alignment + 1, ?_⟩
    rw [Nat.mul_add, Nat.mul_one]
    omega

/-- `l` has `data` at the position `n`. -/
structure Holds {α : Type*} (l : List α) (n : ℕ) (data : List α) : Prop where
  inside : n + data.length ≤ l.length
  contents : (l.drop n).take data.length = data

theorem Holds.append_right {α : Type*} {l : List α} {n : ℕ} {data : List α}
    (h : Holds l n data) (rest : List α) : Holds (l ++ rest) n data := by
  have hn := h.inside
  constructor
  · rw [List.length_append]
    omega
  · rw [List.drop_append_of_le_length (by omega),
      List.take_append_of_le_length (by rw [List.length_drop]; omega)]
    exact h.contents

theorem Holds.of_append {α : Type*} (l data : List α) : Holds (l ++ data) l.length data := by
  constructor
  · rw [List.length_append]
  · rw [List.drop_left, List.take_length]

theorem Holds.take_drop {α : Type*} {l : List α} {n : ℕ} {data : List α} (h : Holds l n data)
    {i m : ℕ} (hm : i + m ≤ data.length) :
    (l.drop (n + i)).take m = (data.drop i).take m := by
  have hpart : ((l.drop n).take data.length).drop i = data.drop i := by rw [h.contents]
  rw [List.drop_take, List.drop_drop] at hpart
  rw [← hpart, List.take_take, Nat.min_eq_left (by omega)]

/-- The contents and the alignments of the blocks, and what is put between them. -/
structure Blocks (ι α : Type*) where
  data : ι → List α
  alignment : ι → ℕ
  fill : α

namespace Blocks

variable {ι α : Type*} (B : Blocks ι α)

/-- Where the block begins behind a storage of `n` elements. -/
def start (n : ℕ) (i : ι) : ℕ :=
  n + padding (B.alignment i) n

/-- Where the block ends. -/
def stop (n : ℕ) (i : ι) : ℕ :=
  B.start n i + (B.data i).length

/-- The blocks with their positions, behind a storage of `n` elements. -/
def place : ℕ → List ι → List (ℕ × ι)
  | _, [] => []
  | n, i :: l => (B.start n i, i) :: place (B.stop n i) l

/-- The storage after one more block. -/
def append (storage : List α) (i : ι) : List α :=
  storage ++ List.replicate (padding (B.alignment i) storage.length) B.fill ++ B.data i

/-- The storage after all the blocks. -/
def storage (s : List α) (l : List ι) : List α :=
  l.foldl B.append s

/-- The length of the storage after all the blocks, behind a storage of `n` elements. -/
def size (n : ℕ) (l : List ι) : ℕ :=
  l.foldl B.stop n

theorem size_cons (n : ℕ) (i : ι) (l : List ι) : B.size n (i :: l) = B.size (B.stop n i) l := rfl

theorem size_append (n : ℕ) (l l' : List ι) : B.size n (l ++ l') = B.size (B.size n l) l' :=
  List.foldl_append

theorem le_size (n : ℕ) (l : List ι) : n ≤ B.size n l := by
  induction l generalizing n with
  | nil => exact Nat.le_refl n
  | cons i l ih =>
    have hstop := ih (B.stop n i)
    rw [size_cons]
    rw [stop, start] at hstop ⊢
    omega

theorem length_append (s : List α) (i : ι) : (B.append s i).length = B.stop s.length i := by
  simp [append, stop, start, Nat.add_assoc]

theorem storage_cons (s : List α) (i : ι) (l : List ι) :
    B.storage s (i :: l) = B.storage (B.append s i) l := rfl

theorem length_storage (s : List α) (l : List ι) :
    (B.storage s l).length = B.size s.length l := by
  induction l generalizing s with
  | nil => rfl
  | cons i l ih => rw [storage_cons, ih, length_append, size_cons]

theorem storage_append (s : List α) (l l' : List ι) :
    B.storage s (l ++ l') = B.storage (B.storage s l) l' :=
  List.foldl_append

theorem map_snd_place (n : ℕ) (l : List ι) : (B.place n l).map Prod.snd = l := by
  induction l generalizing n with
  | nil => rfl
  | cons i l ih => rw [place, List.map_cons, ih]

theorem place_append (s : List α) (l l' : List ι) :
    B.place s.length (l ++ l') = B.place s.length l ++ B.place (B.storage s l).length l' := by
  induction l generalizing s with
  | nil => rfl
  | cons i l ih =>
    rw [List.cons_append, place, place, List.cons_append, storage_cons, ← length_append, ih]

theorem prefix_storage (s : List α) (l : List ι) : s <+: B.storage s l := by
  induction l generalizing s with
  | nil => exact List.prefix_refl s
  | cons i l ih =>
    rw [storage_cons]
    refine List.IsPrefix.trans ?_ (ih _)
    rw [append, List.append_assoc]
    exact List.prefix_append _ _

theorem le_of_mem_place {n : ℕ} {l : List ι} {p : ℕ × ι} (h : p ∈ B.place n l) : n ≤ p.1 := by
  induction l generalizing n with
  | nil => cases h
  | cons i l ih =>
    rw [place, List.mem_cons] at h
    rcases h with rfl | h
    · exact Nat.le_add_right _ _
    · have hstop := ih h
      rw [stop, start] at hstop
      omega

/-- **A block is aligned.** -/
theorem aligned_of_mem_place {n : ℕ} {l : List ι} {p : ℕ × ι}
    (ha : 0 < B.alignment p.2) (h : p ∈ B.place n l) : B.alignment p.2 ∣ p.1 := by
  induction l generalizing n with
  | nil => cases h
  | cons i l ih =>
    rw [place, List.mem_cons] at h
    rcases h with rfl | h
    · exact dvd_add_padding ha n
    · exact ih h

/-- **A block ends before the later ones begin.** -/
theorem pairwise_place (n : ℕ) (l : List ι) :
    (B.place n l).Pairwise fun p q => p.1 + (B.data p.2).length ≤ q.1 := by
  induction l generalizing n with
  | nil => exact List.Pairwise.nil
  | cons i l ih =>
    refine List.Pairwise.cons ?_ (ih _)
    intro q hq
    exact B.le_of_mem_place hq

theorem disjoint_of_mem_place {n : ℕ} {l : List ι} {p q : ℕ × ι} (hp : p ∈ B.place n l)
    (hq : q ∈ B.place n l) (hne : p ≠ q) :
    p.1 + (B.data p.2).length ≤ q.1 ∨ q.1 + (B.data q.2).length ≤ p.1 := by
  have hsymm : Std.Symm fun p q : ℕ × ι =>
      p.1 + (B.data p.2).length ≤ q.1 ∨ q.1 + (B.data q.2).length ≤ p.1 :=
    { symm := fun _ _ => Or.symm }
  have hpairwise : (B.place n l).Pairwise fun p q : ℕ × ι =>
      p.1 + (B.data p.2).length ≤ q.1 ∨ q.1 + (B.data q.2).length ≤ p.1 :=
    (B.pairwise_place n l).imp Or.inl
  exact hpairwise.forall hp hq hne

/-- **The storage has every block at its position.** -/
theorem holds_of_mem_place {s : List α} {l : List ι} {p : ℕ × ι} (h : p ∈ B.place s.length l) :
    Holds (B.storage s l) p.1 (B.data p.2) := by
  induction l generalizing s with
  | nil => cases h
  | cons i l ih =>
    rw [place, List.mem_cons] at h
    rw [storage_cons]
    rcases h with rfl | h
    · -- the later blocks are put behind this one
      obtain ⟨rest, hrest⟩ := B.prefix_storage (B.append s i) l
      have hhere : Holds (B.append s i) (B.start s.length i) (B.data i) := by
        have hlen : (s ++ List.replicate (padding (B.alignment i) s.length) B.fill).length =
            B.start s.length i := by simp [start]
        rw [append, ← hlen]
        exact Holds.of_append _ _
      rw [← hrest]
      exact hhere.append_right rest
    · rw [← length_append] at h
      exact ih h

end Blocks

end BlockLayout
