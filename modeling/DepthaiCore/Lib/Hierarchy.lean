import Mathlib.Data.List.Nodup
import Mathlib.Logic.Relation
import Mathlib.Order.Basic

/-!
# Hierarchies of nodes

Nodes own lists of child nodes, and the owning relation is well founded: a hierarchy carries a rank
that every child has less of. Functions that recurse over the children are then total, with the rank
for the depth of the recursion, and they can be evaluated. A child may have several owners and may
stand in a list twice; nothing here asks for a tree.
-/

/-- Lists of children in which no node is below itself. -/
structure Hierarchy (N : Type*) where
  /-- The children of a node, in order. -/
  children : N → List N
  /-- A bound on the depth below a node. -/
  rank : N → ℕ
  ranked : ∀ n, ∀ c ∈ children n, rank c < rank n

namespace Hierarchy

variable {N S ε α : Type*} (H : Hierarchy N)

/-- What is below `n`, each child before what is below it, to a depth. -/
def descendantsTo : ℕ → N → List N
  | 0, _ => []
  | depth + 1, n => (H.children n).flatMap fun c => c :: descendantsTo depth c

/-- What is below `n`, each child before what is below it. -/
def descendants (n : N) : List N :=
  H.descendantsTo (H.rank n) n

/-- `n` and what is below it. -/
def subtree (n : N) : List N :=
  n :: H.descendants n

/-! ### What is below a node -/

theorem children_eq_nil {n : N} (h : H.rank n = 0) : H.children n = [] :=
  List.eq_nil_iff_forall_not_mem.2 fun c hc => absurd (H.ranked n c hc) (by omega)

theorem descendantsTo_congr {d e : ℕ} {n : N} (hd : H.rank n ≤ d) (he : H.rank n ≤ e) :
    H.descendantsTo d n = H.descendantsTo e n := by
  induction d generalizing n e with
  | zero =>
    cases e with
    | zero => rfl
    | succ e => rw [descendantsTo, descendantsTo, H.children_eq_nil (by omega), List.flatMap_nil]
  | succ d ih =>
    cases e with
    | zero => rw [descendantsTo, descendantsTo, H.children_eq_nil (by omega), List.flatMap_nil]
    | succ e =>
      rw [descendantsTo, descendantsTo]
      refine List.flatMap_congr fun c hc => ?_
      have hlt := H.ranked n c hc
      rw [ih (by omega) (by omega : H.rank c ≤ e)]

theorem descendants_eq (n : N) : H.descendants n = (H.children n).flatMap H.subtree := by
  rw [descendants, H.descendantsTo_congr (Nat.le_refl _) (Nat.le_succ (H.rank n)), descendantsTo]
  refine List.flatMap_congr fun c hc => ?_
  rw [H.descendantsTo_congr (Nat.le_of_lt (H.ranked n c hc)) (Nat.le_refl _), subtree, descendants]

theorem subtree_eq (n : N) : H.subtree n = n :: (H.children n).flatMap H.subtree := by
  rw [subtree, descendants_eq]

theorem mem_subtree_self (n : N) : n ∈ H.subtree n :=
  List.mem_cons_self

/-- **The subtree is what the child relation reaches.** -/
theorem mem_subtree_iff {n m : N} :
    m ∈ H.subtree n ↔ Relation.ReflTransGen (fun a b => b ∈ H.children a) n m := by
  constructor
  · intro h
    induction hr : H.rank n using Nat.strongRecOn generalizing n with
    | _ r ih =>
      rw [subtree_eq, List.mem_cons, List.mem_flatMap] at h
      rcases h with rfl | ⟨c, hc, hm⟩
      · exact .refl
      · exact .head hc (ih _ (hr ▸ H.ranked n c hc) hm rfl)
  · intro h
    induction h using Relation.ReflTransGen.head_induction_on with
    | refl => exact H.mem_subtree_self m
    | head hc _ ih =>
      rw [subtree_eq]
      exact List.mem_cons_of_mem _ (List.mem_flatMap.2 ⟨_, hc, ih⟩)

theorem subtree_subset {H H' : Hierarchy N} (h : ∀ n, H'.children n ⊆ H.children n) (n : N) :
    H'.subtree n ⊆ H.subtree n := by
  intro m hm
  rw [mem_subtree_iff] at hm ⊢
  exact Relation.ReflTransGen.mono (fun a b hb => h a hb) n m hm

/-! ### Visiting in depth -/

/-- `f` at `n`, then at what is below it, to a depth. -/
def visitTo (f : N → S → S) : ℕ → N → S → S
  | 0, n, s => f n s
  | depth + 1, n, s => (H.children n).foldl (fun s c => visitTo f depth c s) (f n s)

/-- `f` at `n`, then at what is below it. -/
def visit (f : N → S → S) (n : N) (s : S) : S :=
  H.visitTo f (H.rank n) n s

theorem visitTo_eq_foldl (f : N → S → S) {depth : ℕ} {n : N} (h : H.rank n ≤ depth) (s : S) :
    H.visitTo f depth n s = (H.subtree n).foldl (fun s m => f m s) s := by
  induction depth generalizing n s with
  | zero =>
    rw [subtree_eq, H.children_eq_nil (by omega)]
    rfl
  | succ depth ih =>
    rw [visitTo, subtree_eq, List.foldl_cons, List.foldl_flatMap]
    refine List.foldl_ext _ _ _ fun t c hc => ih ?_ t
    have := H.ranked n c hc
    omega

theorem visit_eq_foldl (f : N → S → S) (n : N) (s : S) :
    H.visit f n s = (H.subtree n).foldl (fun s m => f m s) s :=
  H.visitTo_eq_foldl f (Nat.le_refl _) s

section Update

variable [DecidableEq N]

omit [DecidableEq N] in
/-- Rounds that apply a function, to which a second time makes no difference, each to the entries of
a list of its own. -/
theorem foldl_rounds [DecidableEq S] {f : α → α} (hf : ∀ a, f (f a) = f a)
    {round : N → (S → α) → S → α} {entries : N → List S}
    (hround : ∀ n g m, round n g m = if m ∈ entries n then f (g m) else g m) (l : List N)
    (g : S → α) (m : S) :
    l.foldl (fun g n => round n g) g m = if m ∈ l.flatMap entries then f (g m) else g m := by
  induction l generalizing g with
  | nil => rfl
  | cons n l ih =>
    rw [List.foldl_cons, ih, hround, List.flatMap_cons]
    by_cases hn : m ∈ entries n <;> by_cases hl : m ∈ l.flatMap entries <;> simp [hn, hl, hf]

/-- **Visiting with an update of one entry updates the entries of the subtree.** -/
theorem visit_update {f : α → α} (hf : ∀ a, f (f a) = f a) (n : N) (g : N → α) (m : N) :
    H.visit (fun n g => Function.update g n (f (g n))) n g m =
      if m ∈ H.subtree n then f (g m) else g m := by
  have hround : ∀ (n : N) (g : N → α) (m : N),
      Function.update g n (f (g n)) m = if m ∈ [n] then f (g m) else g m := by
    intro n g m
    by_cases hm : m = n
    · subst hm
      simp
    · simp [hm]
  rw [visit_eq_foldl, foldl_rounds hf hround, List.flatMap_singleton']

end Update

/-! ### Searching in breadth -/

/-- Visit the front of the queue and put its children behind, up to the first error. The number
bounds the visits. -/
def search (f : N → S → S × Option ε) : ℕ → List N → S → S × Option ε
  | 0, _, s => (s, none)
  | _ + 1, [], s => (s, none)
  | visits + 1, n :: queue, s =>
    match f n s with
    | (t, some e) => (t, some e)
    | (t, none) => search f visits (queue ++ H.children n) t

section Search

variable {f : N → S → S × Option ε}

/-- The visits that a queue takes: one for every entry of its subtrees. -/
theorem length_flatMap_cons (n : N) (queue : List N) :
    ((n :: queue).flatMap H.subtree).length =
      ((queue ++ H.children n).flatMap H.subtree).length + 1 := by
  rw [List.flatMap_cons, subtree_eq, List.flatMap_append, List.length_append, List.length_append,
    List.length_cons]
  omega

theorem mem_flatMap_cons {n m : N} {queue : List N} :
    m ∈ (n :: queue).flatMap H.subtree ↔
      m = n ∨ m ∈ (queue ++ H.children n).flatMap H.subtree := by
  rw [List.flatMap_cons, subtree_eq, List.flatMap_append]
  simp only [List.mem_append, List.mem_cons]
  tauto

/-- What the visits of a set keep, a search keeps that stays in the set. -/
theorem search_invariant_of_mem {V : N → Prop} {I : S → Prop}
    (hI : ∀ n s, V n → I s → I (f n s).1) (visits : ℕ) {queue : List N}
    (hV : ∀ m ∈ queue.flatMap H.subtree, V m) {s : S} (hs : I s) :
    I (H.search f visits queue s).1 := by
  induction visits generalizing queue s with
  | zero => exact hs
  | succ visits ih =>
    cases queue with
    | nil => exact hs
    | cons n queue =>
      rw [search]
      have hn := hI n s (hV n (H.mem_flatMap_cons.2 (.inl rfl))) hs
      have hrest : ∀ m ∈ (queue ++ H.children n).flatMap H.subtree, V m :=
        fun m hm => hV m (H.mem_flatMap_cons.2 (.inr hm))
      generalize f n s = r at hn
      rcases r with ⟨t, _ | e⟩
      · exact ih hrest hn
      · exact hn

theorem search_invariant {I : S → Prop} (hI : ∀ n s, I s → I (f n s).1) (visits : ℕ)
    (queue : List N) {s : S} (hs : I s) : I (H.search f visits queue s).1 :=
  H.search_invariant_of_mem (V := fun _ => True) (fun n s _ => hI n s) visits
    (fun _ _ => trivial) hs

/-- **A search that ends without an error has visited every subtree of its queue.** What a visit
leaves done may rest on an invariant, and on the visits being in a set. -/
theorem search_done_of_mem {V : N → Prop} {I : S → Prop} {Done : N → S → Prop}
    (hI : ∀ n s, V n → I s → I (f n s).1)
    (hdone : ∀ n s, V n → I s → (f n s).2 = none → Done n (f n s).1)
    (hkeep : ∀ m n s, V m → V n → I s → Done m s → Done m (f n s).1) {visits : ℕ}
    {queue : List N} {s : S} (hs : I s) (hV : ∀ m ∈ queue.flatMap H.subtree, V m)
    (hvisits : (queue.flatMap H.subtree).length ≤ visits)
    (hok : (H.search f visits queue s).2 = none) :
    ∀ m ∈ queue.flatMap H.subtree, Done m (H.search f visits queue s).1 := by
  induction visits generalizing queue s with
  | zero =>
    have hnone : queue.flatMap H.subtree = [] := List.length_eq_zero_iff.1 (by omega)
    simp [hnone]
  | succ visits ih =>
    cases queue with
    | nil => simp
    | cons n queue =>
      rw [length_flatMap_cons] at hvisits
      rw [search] at hok ⊢
      have hVn := hV n (H.mem_flatMap_cons.2 (.inl rfl))
      have hn := hdone n s hVn hs
      have hinv := hI n s hVn hs
      have hrest : ∀ m ∈ (queue ++ H.children n).flatMap H.subtree, V m :=
        fun m hm => hV m (H.mem_flatMap_cons.2 (.inr hm))
      generalize f n s = r at hn hinv hok
      rcases r with ⟨t, _ | e⟩
      · intro m hm
        rcases H.mem_flatMap_cons.1 hm with rfl | hm
        · have hboth : ∀ n s, V n → I s ∧ Done m s → I (f n s).1 ∧ Done m (f n s).1 :=
            fun n s hn h => ⟨hI n s hn h.1, hkeep m n s hVn hn h.1 h.2⟩
          exact (H.search_invariant_of_mem hboth _ hrest ⟨hinv, hn rfl⟩).2
        · exact ih hinv hrest (by omega) hok m hm
      · cases hok

theorem search_done {I : S → Prop} {Done : N → S → Prop} (hI : ∀ n s, I s → I (f n s).1)
    (hdone : ∀ n s, I s → (f n s).2 = none → Done n (f n s).1)
    (hkeep : ∀ m n s, I s → Done m s → Done m (f n s).1) {visits : ℕ} {queue : List N} {s : S}
    (hs : I s) (hvisits : (queue.flatMap H.subtree).length ≤ visits)
    (hok : (H.search f visits queue s).2 = none) :
    ∀ m ∈ queue.flatMap H.subtree, Done m (H.search f visits queue s).1 :=
  H.search_done_of_mem (V := fun _ => True) (fun n s _ => hI n s) (fun n s _ => hdone n s)
    (fun m n s _ _ => hkeep m n s) hs (fun _ _ => trivial) hvisits hok

/-- What the first visit leaves, a search leaves, also one that ends with an error. -/
theorem search_head {I : S → Prop} (hI : ∀ n s, I s → I (f n s).1) (visits : ℕ) {n : N}
    {queue : List N} {s : S} (hn : I (f n s).1) : I (H.search f (visits + 1) (n :: queue) s).1 := by
  rw [search]
  generalize f n s = r at hn
  rcases r with ⟨t, _ | e⟩
  · exact H.search_invariant hI _ _ hn
  · exact hn

theorem search_map {T : Type*} {g : N → T → T × Option ε} (part : S → T)
    (hfg : ∀ n s, (part (f n s).1, (f n s).2) = g n (part s)) (visits : ℕ) (queue : List N) (s : S) :
    (part (H.search f visits queue s).1, (H.search f visits queue s).2) =
      H.search g visits queue (part s) := by
  induction visits generalizing queue s with
  | zero => rfl
  | succ visits ih =>
    cases queue with
    | nil => rfl
    | cons n queue =>
      rw [search, search]
      have hn := hfg n s
      generalize f n s = r at hn
      rcases r with ⟨t, _ | e⟩
      · rw [← hn]
        exact ih _ t
      · rw [← hn]

theorem search_error {E : ε → Prop} (hE : ∀ n s e, (f n s).2 = some e → E e) (visits : ℕ)
    {queue : List N} {s : S} {e : ε} (h : (H.search f visits queue s).2 = some e) : E e := by
  induction visits generalizing queue s with
  | zero => cases h
  | succ visits ih =>
    cases queue with
    | nil => cases h
    | cons n queue =>
      rw [search] at h
      have hn := hE n s
      generalize f n s = r at hn h
      rcases r with ⟨t, _ | e'⟩
      · exact ih h
      · cases h
        exact hn e rfl

/-- A search raises no error where no visit of its subtrees does. -/
theorem search_ok {Fine : N → S → Prop} (hfine : ∀ n s, Fine n s → (f n s).2 = none)
    (hkeep : ∀ m n s, Fine m s → Fine m (f n s).1) (visits : ℕ) {queue : List N} {s : S}
    (h : ∀ m ∈ queue.flatMap H.subtree, Fine m s) : (H.search f visits queue s).2 = none := by
  induction visits generalizing queue s with
  | zero => rfl
  | succ visits ih =>
    cases queue with
    | nil => rfl
    | cons n queue =>
      rw [search]
      have hn := hfine n s (h n (H.mem_flatMap_cons.2 (.inl rfl)))
      have hrest : ∀ m ∈ (queue ++ H.children n).flatMap H.subtree, Fine m (f n s).1 :=
        fun m hm => hkeep m n s (h m (H.mem_flatMap_cons.2 (.inr hm)))
      generalize f n s = r at hn hrest
      rcases r with ⟨t, _ | e⟩
      · exact ih hrest
      · cases hn

end Search

/-! ### Taking a child out -/

variable [DecidableEq N]

/-- `x` taken out of the children of the nodes in `owners`. -/
def without (owners : List N) (x : N) : Hierarchy N where
  children n := if n ∈ owners then (H.children n).filter (· ≠ x) else H.children n
  rank := H.rank
  ranked n c hc := by
    refine H.ranked n c ?_
    split at hc
    · exact List.mem_of_mem_filter hc
    · exact hc

theorem children_without (owners : List N) (x n : N) :
    (H.without owners x).children n =
      if n ∈ owners then (H.children n).filter (· ≠ x) else H.children n :=
  rfl

theorem children_without_of_notMem {owners : List N} {n : N} (h : n ∉ owners) (x : N) :
    (H.without owners x).children n = H.children n :=
  if_neg h

theorem subtree_without_subset (owners : List N) (x n : N) :
    (H.without owners x).subtree n ⊆ H.subtree n := by
  refine subtree_subset (fun m c hc => ?_) n
  rw [children_without] at hc
  split at hc
  · exact List.mem_of_mem_filter hc
  · exact hc

@[simp] theorem without_nil (x : N) : H.without [] x = H := by
  simp [without]

theorem without_cons (n : N) (owners : List N) (x : N) :
    (H.without [n] x).without owners x = H.without (n :: owners) x := by
  have hchildren : ∀ m, ((H.without [n] x).without owners x).children m =
      (H.without (n :: owners) x).children m := by
    intro m
    simp only [children_without, List.mem_cons]
    by_cases hn : m = n <;> by_cases hm : m ∈ owners <;> simp [hn, hm, List.filter_filter]
  show Hierarchy.mk _ _ _ = Hierarchy.mk _ _ _
  congr 1
  funext m
  exact hchildren m

/-! ### Attaching a child -/

/-- `c` put behind the children of a node that is not below it. -/
def attach (x c : N) (h : x ∉ H.subtree c) : Hierarchy N where
  children m := if m = x then H.children m ++ [c] else H.children m
  rank m := if x ∈ H.subtree m then H.rank m + H.rank c + 1 else H.rank m
  ranked m d hd := by
    have hup : d ∈ H.children m → x ∈ H.subtree d → x ∈ H.subtree m := by
      intro hchild hx
      rw [mem_subtree_iff] at hx ⊢
      exact .head hchild hx
    by_cases hm : m = x
    · subst hm
      rw [if_pos rfl, List.mem_append, List.mem_singleton] at hd
      rw [if_pos (H.mem_subtree_self m)]
      rcases hd with hd | rfl
      · have hrank := H.ranked m d hd
        split <;> omega
      · rw [if_neg h]
        omega
    · rw [if_neg hm] at hd
      have hrank := H.ranked m d hd
      have hup := hup hd
      split <;> split <;> first | omega | grind

theorem children_attach {x c : N} (h : x ∉ H.subtree c) (m : N) :
    (H.attach x c h).children m = if m = x then H.children m ++ [c] else H.children m :=
  rfl

/-- Below a node there is what was below it, and with the new owner what is below the child. -/
theorem mem_subtree_attach {x c : N} (h : x ∉ H.subtree c) {n m : N} :
    m ∈ (H.attach x c h).subtree n ↔
      m ∈ H.subtree n ∨ x ∈ H.subtree n ∧ m ∈ H.subtree c := by
  have hchild : ∀ a b, b ∈ (H.attach x c h).children a ↔ b ∈ H.children a ∨ a = x ∧ b = c := by
    intro a b
    rw [children_attach]
    by_cases ha : a = x
    · simp [ha]
    · simp [ha]
  have hgrow : ∀ {a b}, Relation.ReflTransGen (fun a b => b ∈ H.children a) a b →
      Relation.ReflTransGen (fun a b => b ∈ (H.attach x c h).children a) a b := by
    intro a b hab
    exact Relation.ReflTransGen.mono (fun a b hb => (hchild a b).2 (.inl hb)) a b hab
  simp only [mem_subtree_iff]
  constructor
  · intro hway
    induction hway with
    | refl => exact .inl .refl
    | @tail a b hna hab ih =>
      rcases (hchild a b).1 hab with hb | ⟨rfl, rfl⟩
      · rcases ih with ih | ⟨hx, ih⟩
        · exact .inl (ih.tail hb)
        · exact .inr ⟨hx, ih.tail hb⟩
      · rcases ih with ih | ⟨hx, ih⟩
        · exact .inr ⟨ih, .refl⟩
        · exact .inr ⟨hx, .refl⟩
  · rintro (hway | ⟨hx, hc⟩)
    · exact hgrow hway
    · exact ((hgrow hx).tail ((hchild x c).2 (.inr ⟨rfl, rfl⟩))).trans (hgrow hc)

end Hierarchy
