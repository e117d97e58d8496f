import Mathlib.Data.List.Dedup
import Mathlib.Data.List.Induction
import Mathlib.Data.List.Perm.Subperm
import Mathlib.Data.List.TakeWhile

/-!
# Directory trees

What a file system holds, and how the text of a path is followed. A place is the list of the names
on the way from the root. A tree says what is at each place, and every file or directory other than
the root is in a directory; it is finite, and `paths` has all its places.

The system reads the text of a path up to the first null character and takes it apart at the
slashes. It looks the names up one by one, so that what is before a slash has to be a directory, and
two dots lead back to the directory above.
-/

/-- What is at a place. -/
inductive FileNode (B : Type*)
  | dir
  | file (content : B)
  deriving DecidableEq, Repr

/-- A finite tree of directories, with names from `N` and contents from `B`. -/
structure FileTree (N B : Type*) where
  node : List N → Option (FileNode B)
  root : node [] = some .dir
  closed : ∀ p n, node (p ++ [n]) ≠ none → node p = some .dir
  paths : List (List N)
  mem_paths : ∀ p, node p ≠ none → p ∈ paths

namespace FileTree

variable {N B : Type*}

/-- The tree with nothing but the root. -/
def empty [DecidableEq N] : FileTree N B where
  node p := if p = [] then some .dir else none
  root := rfl
  closed p n h := by simp at h
  paths := [[]]
  mem_paths p h := by simpa using h

/-- There is a directory at a place. -/
def isDir (t : FileTree N B) (p : List N) : Bool :=
  match t.node p with
  | some .dir => true
  | _ => false

/-- There is something at a place. -/
def taken (t : FileTree N B) (p : List N) : Bool := (t.node p).isSome

section Tree

variable {t t' : FileTree N B} {p q : List N} {n : N} {b : B} {x : FileNode B}

@[simp] theorem isDir_iff : t.isDir p = true ↔ t.node p = some .dir := by
  unfold isDir
  split
  · simp [*]
  · simpa using ‹∀ _, _›

theorem taken_iff : t.taken p = true ↔ t.node p ≠ none := by
  rw [taken, Option.isSome_iff_ne_none]

theorem node_of_append {r : List N} (h : t.node (p ++ r) ≠ none) (hr : r ≠ []) :
    t.node p = some .dir := by
  induction r using List.reverseRecOn with
  | nil => exact absurd rfl hr
  | append_singleton r n ih =>
    rw [← List.append_assoc] at h
    have hdir := t.closed _ _ h
    by_cases hr' : r = []
    · simpa [hr'] using hdir
    · exact ih (by simp [hdir]) hr'

theorem node_below (h : t.node p ≠ some .dir) (hpq : p <+: q) (hne : q ≠ p) : t.node q = none := by
  obtain ⟨r, rfl⟩ := hpq
  by_contra hq
  exact h (node_of_append hq (by rintro rfl; simp at hne))

end Tree

/-! ### Operations -/

section Operations

variable [DecidableEq N] {t t' : FileTree N B} {p q : List N} {n : N} {b : B} {x : FileNode B}

/-- The tree with `x` at the place `n` in the directory `p`, where there is no directory yet. -/
def put (t : FileTree N B) (p : List N) (n : N) (x : FileNode B) (hp : t.node p = some .dir)
    (hn : t.node (p ++ [n]) ≠ some .dir) : FileTree N B where
  node := Function.update t.node (p ++ [n]) (some x)
  root := by simpa using t.root
  closed q m h := by
    by_cases hqm : q ++ [m] = p ++ [n]
    · obtain ⟨rfl, -⟩ := List.append_inj' hqm rfl
      simpa using hp
    · rw [Function.update_of_ne hqm] at h
      have hq := t.closed q m h
      have hne : q ≠ p ++ [n] := fun heq => hn (heq ▸ hq)
      rwa [Function.update_of_ne hne]
  paths := (p ++ [n]) :: t.paths
  mem_paths q h := by
    by_cases hq : q = p ++ [n]
    · exact List.mem_cons.2 (.inl hq)
    · rw [Function.update_of_ne hq] at h
      exact List.mem_cons_of_mem _ (t.mem_paths q h)

/-- A new file or directory at the place `n` in the directory `p`, if it can be put there. -/
def put? (t : FileTree N B) (p : List N) (n : N) (x : FileNode B) : Option (FileTree N B) :=
  if h : t.isDir p = true ∧ t.isDir (p ++ [n]) = false then
    some (t.put p n x (isDir_iff.1 h.1) fun hdir => by simp [isDir_iff.2 hdir] at h)
  else none

theorem put?_eq_some (h : t.put? p n x = some t') :
    t.node p = some .dir ∧ t.node (p ++ [n]) ≠ some .dir ∧
      t'.node = Function.update t.node (p ++ [n]) (some x) := by
  unfold put? at h
  split_ifs at h with hdir
  obtain rfl := Option.some.inj h
  exact ⟨isDir_iff.1 hdir.1, fun h' => by simp [isDir_iff.2 h'] at hdir, rfl⟩

theorem exists_put? (hp : t.node p = some .dir) (hn : t.node (p ++ [n]) ≠ some .dir) :
    ∃ t', t.put? p n x = some t' := by
  have hfalse : t.isDir (p ++ [n]) = false := by
    rw [Bool.eq_false_iff, ne_eq, isDir_iff]
    exact hn
  exact ⟨_, dif_pos ⟨isDir_iff.2 hp, hfalse⟩⟩

/-- What is at a place and everything below it go away. The root stays. -/
def removeAll (t : FileTree N B) (p : List N) : FileTree N B where
  node q := if p ≠ [] ∧ p <+: q then none else t.node q
  root := by
    rw [if_neg fun h => h.1 (List.prefix_nil.1 h.2)]
    exact t.root
  closed q n h := by
    by_cases hpq : p ≠ [] ∧ p <+: q
    · rw [if_pos ⟨hpq.1, hpq.2.trans (List.prefix_append q [n])⟩] at h
      exact absurd rfl h
    · rw [if_neg hpq]
      split_ifs at h with hpqn
      · exact absurd rfl h
      · exact t.closed q n h
  paths := t.paths
  mem_paths q h := by
    split_ifs at h with hpq
    · exact absurd rfl h
    · exact t.mem_paths q h

theorem node_removeAll (hp : p ≠ []) (q : List N) :
    (t.removeAll p).node q = if p <+: q then none else t.node q := by
  simp [removeAll, hp]

/-- The directories on the way from `p` along `ns`, made where they are missing. -/
def makeDirs (t : FileTree N B) (p : List N) : List N → Option (FileTree N B)
  | [] => some t
  | n :: ns =>
    match t.node (p ++ [n]) with
    | some .dir => t.makeDirs (p ++ [n]) ns
    | some (.file _) => none
    | none => (t.put? p n .dir).bind fun t' => t'.makeDirs (p ++ [n]) ns

/-- All directories are made unless a file is in the way. -/
theorem exists_makeDirs (hp : t.node p = some .dir) (ns : List N)
    (hfile : ∀ ms, ms <+: ns → ∀ b, t.node (p ++ ms) ≠ some (.file b)) :
    ∃ t', t.makeDirs p ns = some t' ∧ t'.node (p ++ ns) = some .dir ∧
      ∀ q, t'.node q = t.node q ∨
        t.node q = none ∧ t'.node q = some .dir ∧ ∃ ms, ms <+: ns ∧ q = p ++ ms := by
  induction ns generalizing t p with
  | nil => exact ⟨t, rfl, by simpa using hp, fun q => .inl rfl⟩
  | cons n ns ih =>
    have htail (t : FileTree N B)
        (h : ∀ ms, ms <+: n :: ns → ∀ b, t.node (p ++ ms) ≠ some (.file b)) (ms : List N)
        (hms : ms <+: ns) (b : B) : t.node (p ++ [n] ++ ms) ≠ some (.file b) := by
      simpa using h (n :: ms) (List.cons_prefix_cons.2 ⟨rfl, hms⟩) b
    have hplace (ms : List N) (hms : ms <+: ns) :
        ∃ ms', ms' <+: n :: ns ∧ p ++ [n] ++ ms = p ++ ms' :=
      ⟨n :: ms, List.cons_prefix_cons.2 ⟨rfl, hms⟩, by simp⟩
    unfold makeDirs
    split
    · next hdir =>
      obtain ⟨t', ht', hdir', hnode⟩ := ih hdir (htail t hfile)
      refine ⟨t', ht', by simpa using hdir', fun q => (hnode q).imp_right ?_⟩
      rintro ⟨hnone, hq, ms, hms, rfl⟩
      exact ⟨hnone, hq, hplace ms hms⟩
    · next b hb => exact absurd hb (hfile [n] (by simp) b)
    · next hnone =>
      obtain ⟨t₁, ht₁⟩ := exists_put? (n := n) (x := .dir) hp (by simp [hnone])
      obtain ⟨-, -, hnode₁⟩ := put?_eq_some ht₁
      have hfile₁ : ∀ ms, ms <+: n :: ns → ∀ b, t₁.node (p ++ ms) ≠ some (.file b) := by
        intro ms hms b
        rw [hnode₁]
        by_cases heq : p ++ ms = p ++ [n]
        · simp [heq]
        · rw [Function.update_of_ne heq]
          exact hfile ms hms b
      obtain ⟨t', ht', hdir', hnode⟩ := ih (by simp [hnode₁]) (htail t₁ hfile₁)
      refine ⟨t', by simp [ht₁, ht'], by simpa using hdir', fun q => ?_⟩
      by_cases hq : q = p ++ [n]
      · subst hq
        refine .inr ⟨hnone, ?_, [n], by simp, rfl⟩
        rcases hnode (p ++ [n]) with h | ⟨-, h, -⟩
        · simpa [hnode₁] using h
        · exact h
      · have hq₁ : t₁.node q = t.node q := by rw [hnode₁, Function.update_of_ne hq]
        rw [← hq₁]
        refine (hnode q).imp_right ?_
        rintro ⟨hnone', hdir'', ms, hms, rfl⟩
        exact ⟨hnone', hdir'', hplace ms hms⟩

end Operations

/-! ### Paths -/

/-- A part of the text of a path. -/
inductive Component (N : Type*)
  | up
  | into (name : N)
  deriving DecidableEq, Repr

/-- The parts of the text of a path. -/
def components (text : List Char) : List (Component (List Char)) :=
  ((text.takeWhile fun c => c ≠ '\x00').splitOn '/').filterMap fun name =>
    if name = [] ∨ name = ['.'] then none
    else if name = ['.', '.'] then some .up
    else some (.into name)

/-- A text that is the name of something: it has neither a slash nor a null character, and it is no
dot or dots. -/
structure Plain (text : List Char) : Prop where
  slash : '/' ∉ text
  null : '\x00' ∉ text
  dots : text ≠ [] ∧ text ≠ ['.'] ∧ text ≠ ['.', '.']

theorem Plain.append {text rest : List Char} (h : Plain text) (hslash : '/' ∉ rest)
    (hnull : '\x00' ∉ rest) : Plain (text ++ rest) where
  slash := by simp [h.slash, hslash]
  null := by simp [h.null, hnull]
  dots := by
    obtain ⟨hnil, hdot, hdots⟩ := h.dots
    match text with
    | [] => exact absurd rfl hnil
    | [x] => exact ⟨by simp, by rintro heq; simp_all, by rintro heq; simp_all⟩
    | [x, y] => exact ⟨by simp, by simp, by rintro heq; simp_all⟩
    | x :: y :: z :: text => exact ⟨by simp, by simp, by simp⟩

theorem takeWhile_of_null_notMem {text : List Char} (h : '\x00' ∉ text) :
    text.takeWhile (fun c => c ≠ '\x00') = text :=
  List.takeWhile_eq_self_iff.2 fun c hc => by
    simpa using fun heq : c = '\x00' => h (heq ▸ hc)

theorem components_of_plain {text : List Char} (h : Plain text) :
    components text = [.into text] := by
  obtain ⟨hnil, hdot, hdots⟩ := h.dots
  rw [components, takeWhile_of_null_notMem h.null, List.splitOn_eq_singleton h.slash]
  simp [hnil, hdot, hdots]

theorem components_append {text rest : List Char} (h : Plain text) (hnull : '\x00' ∉ rest) :
    components (text ++ '/' :: rest) = .into text :: components rest := by
  obtain ⟨hnil, hdot, hdots⟩ := h.dots
  have hall : '\x00' ∉ text ++ '/' :: rest := by simp [h.null, hnull]
  rw [components, components, takeWhile_of_null_notMem hall, takeWhile_of_null_notMem hnull,
    List.splitOn_append_cons_self_of_not_mem h.slash]
  simp [hnil, hdot, hdots]

theorem components_slash {text text' : List Char} (h : Plain text) (h' : Plain text') :
    components (text ++ '/' :: text') = [.into text, .into text'] := by
  rw [components_append h h'.null, components_of_plain h']

/-- Where the parts of a path lead from the place `p`. All that is gone through is a directory; the
last place may be empty. -/
def walk (t : FileTree N B) (p : List N) : List (Component N) → Option (List N)
  | [] => some p
  | .up :: cs => if t.isDir p then t.walk p.dropLast cs else none
  | .into n :: cs => if t.isDir p then t.walk (p ++ [n]) cs else none

/-- `std::filesystem::exists`. -/
def pathExists (t : FileTree N B) (p : List N) (cs : List (Component N)) : Bool :=
  match t.walk p cs with
  | some q => t.taken q
  | none => false

theorem walk_plain {t : FileTree N B} {p : List N} (h : t.node p = some .dir) (n : N) :
    t.walk p [.into n] = some (p ++ [n]) := by
  simp [walk, h]

theorem walk_plain₂ {t : FileTree N B} {p : List N} {n : N} (hp : t.node p = some .dir)
    (hn : t.node (p ++ [n]) = some .dir) (m : N) :
    t.walk p [.into n, .into m] = some (p ++ [n] ++ [m]) := by
  simp [walk, hp, hn]

theorem pathExists_plain₂ {t : FileTree N B} {p : List N} {n : N} (hp : t.node p = some .dir)
    (hn : t.node (p ++ [n]) = some .dir) (m : N) :
    t.pathExists p [.into n, .into m] = t.taken (p ++ [n] ++ [m]) := by
  rw [pathExists, walk_plain₂ hp hn]

theorem pathExists_plain (t : FileTree N B) (p : List N) (n : N) :
    t.pathExists p [.into n] = t.taken (p ++ [n]) := by
  by_cases h : t.node p = some .dir
  · simp [pathExists, walk_plain h]
  · -- Neither the directory nor anything in it is there.
    have hnone : t.node (p ++ [n]) = none := node_below h (List.prefix_append _ _) (by simp)
    simp [pathExists, walk, h, taken, hnone]

section Make

variable [DecidableEq N]

/-- `std::filesystem::create_directory`: it throws if the path leads nowhere or to a file, and does
nothing where a directory is. -/
def makeDir (t : FileTree N B) (p : List N) (cs : List (Component N)) : Option (FileTree N B) :=
  match t.walk p cs with
  | none => none
  | some q =>
    match t.node q with
    | some .dir => some t
    | some (.file _) => none
    | none => q.getLast?.bind fun n => t.put? q.dropLast n .dir

/-- A file is opened and written at a path, unless it cannot be opened. -/
def write (t : FileTree N B) (p : List N) (cs : List (Component N)) (b : B) :
    Option (FileTree N B) :=
  (t.walk p cs).bind fun q => q.getLast?.bind fun n => t.put? q.dropLast n (.file b)

theorem makeDir_plain {t : FileTree N B} {p : List N} {n : N} (hp : t.node p = some .dir)
    (hn : t.node (p ++ [n]) = none) :
    ∃ t', t.makeDir p [.into n] = some t' ∧
      t'.node = Function.update t.node (p ++ [n]) (some .dir) := by
  obtain ⟨t', ht'⟩ := exists_put? (n := n) (x := .dir) hp (by simp [hn])
  exact ⟨t', by simp [makeDir, walk_plain hp, hn, ht'], (put?_eq_some ht').2.2⟩

theorem write_plain {t : FileTree N B} {p : List N} {n m : N} {b : B} (hp : t.node p = some .dir)
    (hn : t.node (p ++ [n]) = some .dir) (hm : t.node (p ++ [n] ++ [m]) ≠ some .dir) :
    ∃ t', t.write p [.into n, .into m] b = some t' ∧
      t'.node = Function.update t.node (p ++ [n] ++ [m]) (some (.file b)) := by
  obtain ⟨t', ht'⟩ := exists_put? (x := .file b) hn hm
  have hput : t.put? (p ++ [n] ++ [m]).dropLast m (.file b) = some t' := by
    rw [List.dropLast_concat, ht']
  refine ⟨t', ?_, (put?_eq_some ht').2.2⟩
  simp only [write, walk_plain₂ hp hn, List.getLast?_concat, Option.bind_some, hput]

end Make

/-! ### Free places -/

/-- The first number whose place is not taken. The search goes beyond the number of places that
there are; it finds nothing only if all places searched are the same, and taken. -/
def firstFree (t : FileTree N B) (isTaken : ℕ → Bool) : Option ℕ :=
  (List.range (t.paths.length + 1)).find? fun i => !isTaken i

theorem firstFree_eq_some {t : FileTree N B} {isTaken : ℕ → Bool} {i : ℕ}
    (h : t.firstFree isTaken = some i) : isTaken i = false := by
  simpa using List.find?_some h

theorem exists_firstFree (t : FileTree N B) {place : ℕ → List N} (hplace : Function.Injective place)
    {isTaken : ℕ → Bool} (htaken : ∀ i, isTaken i = t.taken (place i)) :
    ∃ i, t.firstFree isTaken = some i ∧ t.node (place i) = none := by
  cases hfree : t.firstFree isTaken with
  | some i =>
    refine ⟨i, rfl, ?_⟩
    have := firstFree_eq_some hfree
    rw [htaken] at this
    simpa [taken] using this
  | none =>
    -- Otherwise the places searched would all be among fewer paths.
    have hall : ∀ i ∈ List.range (t.paths.length + 1), place i ∈ t.paths := by
      intro i hi
      have := List.find?_eq_none.1 hfree i hi
      rw [htaken] at this
      exact t.mem_paths _ (taken_iff.1 (by simpa using this))
    have hnodup : ((List.range (t.paths.length + 1)).map place).Nodup :=
      List.nodup_range.map hplace
    have hsub : ((List.range (t.paths.length + 1)).map place).Subperm t.paths :=
      hnodup.subperm fun q hq => by
        obtain ⟨i, hi, rfl⟩ := List.mem_map.1 hq
        exact hall i hi
    have hle := hsub.length_le
    rw [List.length_map, List.length_range] at hle
    omega

end FileTree
