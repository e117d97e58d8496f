import DepthaiCore.Lib.FileTree
import DepthaiCore.Lib.Separators
import DepthaiCore.Utility.EventsManager

/-!
# The cache directory of `EventsManager`

`cacheEvents` and `cacheSnapData` make a directory of its own for each event or snap. The text of its
path is put together from the name and the time stamp of the event, and a number if there is such a
directory already. Nothing in `validateEvent` keeps slashes or null characters out of the name. With a
slash in it the text is a path through a directory that nobody makes, so that `create_directory`
throws; from a null character on the system does not read the text, and so does not see the number.
-/

namespace DepthaiCore

namespace EventsManager

open FileTree

/-- A place in the file system. -/
abbrev Place := List (List Char)

/-- The default cache directory. -/
def internalPrivate : Place := ["internal".toList, "private".toList]

/-- What the caching of something comes to: it is done, an exception is thrown, or the search for a
directory that does not exist goes on for ever. -/
inductive Outcome (α : Type*)
  | done (a : α)
  | threw
  | endless
  deriving DecidableEq, Repr

/-- The text of the path of an entry, below the cache directory: the `i`-th that is tried. -/
def entryText (start : String) (event : Event) (i : ℕ) : List Char :=
  start.toList ++ '_' :: (event.name.toList ++ '_' :: ((toString event.createdAt).toList ++
    if i = 0 then [] else '_' :: i.repr.toList))

variable {B : Type*}

/-- The directory for an entry: the first that does not exist. The cache directory is made if it is
not there. -/
def makeEntry (cacheDir : Place) (start : String) (event : Event)
    (disk : FileTree (List Char) B) : FileTree (List Char) B × Outcome (List Char) :=
  let path i := components (entryText start event i)
  match disk.firstFree fun i => disk.pathExists cacheDir (path i) with
  | none => (disk, .endless)
  | some i =>
    match if disk.taken cacheDir then some disk else disk.makeDirs [] cacheDir with
    | none => (disk, .threw)
    | some disk =>
      match disk.makeDir cacheDir (path i) with
      | none => (disk, .threw)
      | some disk => (disk, .done (entryText start event i))

/-- A name that is part of the name of a directory. -/
structure PlainName (name : String) : Prop where
  slash : '/' ∉ name.toList
  null : '\x00' ∉ name.toList

/-- There is no file where the cache directory should be, or on the way to it. -/
def Usable (cacheDir : Place) (disk : FileTree (List Char) B) : Prop :=
  ∀ p, p <+: cacheDir → ∀ b, disk.node p ≠ some (.file b)

theorem notMem_entryText {c : Char} {start : String} {event : Event} (hdigit : c.isDigit = false)
    (hminus : c ≠ '-') (hunderscore : c ≠ '_') (hstart : c ∉ start.toList)
    (hname : c ∉ event.name.toList) (i : ℕ) : c ∉ entryText start event i := by
  simp only [entryText, List.mem_append, List.mem_cons, not_or]
  refine ⟨hstart, hunderscore, hname, hunderscore,
    Separators.notMem_toString hdigit hminus event.createdAt, ?_⟩
  split_ifs
  · exact List.not_mem_nil
  · exact List.not_mem_cons_of_ne_of_not_mem hunderscore (Separators.notMem_repr hdigit i)

theorem plain_entryText {start : String} {event : Event} (hstart : PlainName start)
    (hname : PlainName event.name) (i : ℕ) : Plain (entryText start event i) where
  slash := notMem_entryText rfl (by decide) (by decide) hstart.slash hname.slash i
  null := notMem_entryText rfl (by decide) (by decide) hstart.null hname.null i
  dots := by
    have hmem : '_' ∈ entryText start event i := by simp [entryText]
    refine ⟨?_, ?_, ?_⟩ <;> (intro h; simp [h] at hmem)

theorem entryText_injective (start : String) (event : Event) :
    Function.Injective (entryText start event) := by
  intro i j h
  simp only [entryText, List.append_cancel_left_eq, List.cons.injEq, true_and] at h
  by_cases hi : i = 0 <;> by_cases hj : j = 0
  · rw [hi, hj]
  · simp [hi, hj] at h
  · simp [hi, hj] at h
  · rw [if_neg hi, if_neg hj] at h
    exact Separators.repr_injective (String.toList_inj.1 (List.cons.inj h).2)

/-- The cache directory is there, or is made with what is missing on the way to it. -/
theorem exists_cacheDir {cacheDir : Place} {disk : FileTree (List Char) B}
    (husable : Usable cacheDir disk) :
    ∃ disk₁, (if disk.taken cacheDir then some disk else disk.makeDirs [] cacheDir) = some disk₁ ∧
      disk₁.node cacheDir = some .dir ∧ ∀ p, disk₁.node p = disk.node p ∨
        disk.node p = none ∧ disk₁.node p = some .dir ∧ p <+: cacheDir := by
  split_ifs with htaken
  · refine ⟨disk, rfl, ?_, fun p => .inl rfl⟩
    cases hnode : disk.node cacheDir with
    | none => exact absurd hnode (taken_iff.1 htaken)
    | some x =>
      cases x with
      | dir => rfl
      | file b => exact absurd hnode (husable _ (List.prefix_refl _) b)
  · obtain ⟨disk₁, h₁, hdir, hnode⟩ := exists_makeDirs disk.root cacheDir
      fun p hp b => by simpa using husable p hp b
    refine ⟨disk₁, h₁, by simpa using hdir, fun p => (hnode p).imp_right ?_⟩
    rintro ⟨hnone, hp, q, hq, rfl⟩
    exact ⟨hnone, hp, by simpa using hq⟩

/-- **A plain name gets a new directory**, which is empty, and no file is touched. -/
theorem makeEntry_plain {cacheDir : Place} {start : String} {event : Event}
    {disk : FileTree (List Char) B} (hstart : PlainName start) (hname : PlainName event.name)
    (husable : Usable cacheDir disk) :
    ∃ disk' i, makeEntry cacheDir start event disk = (disk', .done (entryText start event i)) ∧
      disk'.node cacheDir = some .dir ∧
      disk'.node (cacheDir ++ [entryText start event i]) = some .dir ∧
      (∀ m, disk'.node (cacheDir ++ [entryText start event i] ++ [m]) = none) ∧
      ∀ p b, disk'.node p = some (.file b) ↔ disk.node p = some (.file b) := by
  have hpath (i : ℕ) : components (entryText start event i) = [.into (entryText start event i)] :=
    components_of_plain (plain_entryText hstart hname i)
  have hplace : Function.Injective fun i => cacheDir ++ [entryText start event i] := by
    intro i j h
    exact entryText_injective start event (by simpa using h)
  have htaken (i : ℕ) : disk.pathExists cacheDir (components (entryText start event i)) =
      disk.taken (cacheDir ++ [entryText start event i]) := by
    rw [hpath, pathExists_plain]
  obtain ⟨i, hfree, hnone⟩ := disk.exists_firstFree hplace htaken
  obtain ⟨disk₁, hdisk₁, hdir₁, hnode₁⟩ := exists_cacheDir husable
  have hnone₁ : disk₁.node (cacheDir ++ [entryText start event i]) = none := by
    rcases hnode₁ (cacheDir ++ [entryText start event i]) with h | ⟨-, -, hq⟩
    · rw [h, hnone]
    · exact absurd hq.length_le (by simp)
  obtain ⟨disk₂, hdisk₂, hnode₂⟩ := makeDir_plain hdir₁ hnone₁
  refine ⟨disk₂, i, ?_, ?_, by simp [hnode₂], fun m => ?_, fun p b => ?_⟩
  · simp only [makeEntry]
    rw [hfree]
    simp only [hdisk₁, hpath, hdisk₂]
  · rw [hnode₂, Function.update_of_ne (by simp), hdir₁]
  · rw [hnode₂, Function.update_of_ne (by simp)]
    exact node_below (by simp [hnone₁]) (List.prefix_append _ _) (by simp)
  · rw [hnode₂]
    by_cases hp : p = cacheDir ++ [entryText start event i]
    · simp [hp, hnone]
    · rw [Function.update_of_ne hp]
      rcases hnode₁ p with h | ⟨h, h', -⟩
      · rw [h]
      · simp [h, h']

end EventsManager

end DepthaiCore
