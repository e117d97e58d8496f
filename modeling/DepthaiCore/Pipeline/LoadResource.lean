import DepthaiCore.Pipeline.AssetManager

/-!
# Loading resources

`loadResource` takes a URI `asset:` with a key behind it. A relative key is put behind the working
directory, and the result is looked up in the asset manager of the pipeline and in those of its
nodes, each of which takes its own root path off. `moveResource` takes the data along.

What is stored under a key is found under it only if the manager gets the same key back from the
result, and if no manager that is asked before it has something there.
-/

namespace DepthaiCore

/-- The asset managers: that of the pipeline is at `none`. -/
abbrev AssetManagers (N : Type*) := Option N → AssetManager

/-- Taking the data out leaves an asset without any. -/
def AssetManager.moveData (t : AssetManager) (key : List Char) : AssetManager :=
  match t.assetMap[key]? with
  | some asset => t.set { asset with data := [] }
  | none => t

/-- `getAbsUri`. Without a colon there is no resource type. -/
def getAbsUri (uri cwd : List Char) : List Char :=
  let n := (uri.idxOf? ':').elim 0 (· + 1)
  let resourceType := uri.take n
  if uri[n]? = some '/' then uri else resourceType ++ cwd ++ uri.drop n

section Model

variable {N O I P : Type*} [DecidableEq N]

/-- The handler of `asset`, over the managers in the order in which they are asked. -/
def handleAsset (uri : List Char) (moveAsset : Bool) (r : AssetManagers N) :
    List (Option N) → Except String (List UInt8) × AssetManagers N
  | [] => (.error ("No asset with key (" ++ String.ofList uri ++ ") found"), r)
  | m :: places =>
    match (r m).get uri with
    | some asset =>
      (.ok asset.data,
        if moveAsset then
          Function.update r m (((r m).remove uri).moveData ((r m).getRelativeKey uri))
        else r)
    | none => handleAsset uri moveAsset r places

namespace PipelineImpl

variable (s : PipelineImpl N O I P)

/-- The pipeline is asked first, then its nodes. -/
def places : List (Option N) :=
  none :: s.nodes.map some

def loadResourceCwd (r : AssetManagers N) (uri cwd : List Char) (moveAsset : Bool) :
    Except String (List UInt8) × AssetManagers N :=
  if "asset:".toList <+: uri then
    handleAsset ((getAbsUri uri cwd).drop "asset:".length) moveAsset r s.places
  else (.error ("No handler specified for following (" ++ String.ofList uri ++ ") URI"), r)

def loadResource (r : AssetManagers N) (uri : List Char) :
    Except String (List UInt8) × AssetManagers N :=
  s.loadResourceCwd r uri "/pipeline".toList false

end PipelineImpl

variable (s : PipelineImpl N O I P)

/-- `Node::loadResource`, of a node of this pipeline. -/
def Node.loadResource (r : AssetManagers N) (node : N) (uri : List Char) :
    Except String (List UInt8) × AssetManagers N :=
  s.loadResourceCwd r uri (nodePrefix (s.id node)) false

/-- `Node::moveResource`, of a node of this pipeline. -/
def Node.moveResource (r : AssetManagers N) (node : N) (uri : List Char) :
    Except String (List UInt8) × AssetManagers N :=
  s.loadResourceCwd r uri (nodePrefix (s.id node)) true

/-! ### What is asked of loading -/

/-- The asset is set in the manager `m`. -/
def AssetManagers.store (r : AssetManagers N) (m : Option N) (asset : Asset) : AssetManagers N :=
  Function.update r m ((r m).set asset)

/-- What is stored in the pipeline is loaded by its key. -/
def PipelineLoads (r : AssetManagers N) (key : List Char) : Prop :=
  ∀ asset : Asset, asset.key = key →
    (s.loadResource (r.store none asset) ("asset:".toList ++ key)).1 = .ok asset.data

/-- What is stored in a node is loaded by its key. -/
def NodeLoads (r : AssetManagers N) (node : N) (key : List Char) : Prop :=
  ∀ asset : Asset, asset.key = key →
    (Node.loadResource s (r.store (some node) asset) node ("asset:".toList ++ key)).1 =
      .ok asset.data

/-- What is stored in a node is loaded by its absolute URI, whoever does it. -/
def AbsoluteLoads (r : AssetManagers N) (node : N) (key : List Char) : Prop :=
  ∀ (cwd : List Char) (asset : Asset), asset.key = key →
    (s.loadResourceCwd (r.store (some node) asset)
      ("asset:".toList ++ (nodePrefix (s.id node) ++ key)) cwd false).1 = .ok asset.data

/-- What is stored in a node is moved out once, and then it is not there any more. -/
def MovesOnce (r : AssetManagers N) (node : N) (key : List Char) : Prop :=
  ∀ asset : Asset, asset.key = key →
    let moved := Node.moveResource s (r.store (some node) asset) node ("asset:".toList ++ key)
    moved.1 = .ok asset.data ∧
      (∃ e, (Node.loadResource s moved.2 node ("asset:".toList ++ key)).1 = .error e) ∧
      ∃ e, (Node.moveResource s moved.2 node ("asset:".toList ++ key)).1 = .error e

/-! ### The search -/

/-- The manager `m` gets `key` back from the path, and no manager that is asked before it has
anything there. -/
structure Reaches (r : AssetManagers N) (places : List (Option N)) (m : Option N)
    (path key : List Char) : Prop where
  asked : m ∈ places
  first : ∀ m' ∈ places.takeWhile (· ≠ m), (r m').get path = none
  key : (r m).getRelativeKey path = key

section Search

variable {r : AssetManagers N} {places : List (Option N)} {m : Option N} {path key : List Char}

theorem store_self (r : AssetManagers N) (m : Option N) (asset : Asset) :
    r.store m asset m = (r m).set asset :=
  Function.update_self ..

theorem store_of_ne {m' : Option N} (hne : m' ≠ m) (asset : Asset) :
    r.store m asset m' = r m' :=
  Function.update_of_ne hne ..

theorem not_forall_asset (key : List Char) (data : List UInt8) :
    ¬∀ asset : Asset, asset.key = key → (.ok data : Except String (List UInt8)) = .ok asset.data := by
  intro h
  have hzero := h { key, data := [0] } rfl
  have hone := h { key, data := [1] } rfl
  rw [hzero] at hone
  simp at hone

theorem handleAsset_of_none {moveAsset : Bool} (h : (r m).get path = none) :
    handleAsset path moveAsset r (m :: places) = handleAsset path moveAsset r places := by
  rw [handleAsset, h]

theorem handleAsset_of_some {moveAsset : Bool} {asset : Asset} (h : (r m).get path = some asset) :
    handleAsset path moveAsset r (m :: places) =
      (.ok asset.data,
        if moveAsset then
          Function.update r m (((r m).remove path).moveData ((r m).getRelativeKey path))
        else r) := by
  rw [handleAsset, h]

/-- What the first manager has already is found, whatever is set elsewhere. -/
theorem handleAsset_set_cons {m' : Option N} {moveAsset : Bool}
    (hsame : ∀ asset : Asset, asset.key = key → (r.store m asset m').get path = (r m').get path) :
    (∀ asset : Asset, asset.key = key →
      (handleAsset path moveAsset (r.store m asset) (m' :: places)).1 = .ok asset.data) ↔
        (r m').get path = none ∧ ∀ asset : Asset, asset.key = key →
          (handleAsset path moveAsset (r.store m asset) places).1 = .ok asset.data := by
  rcases hget : (r m').get path with _ | a
  · rw [and_iff_right rfl]
    refine forall₂_congr fun asset hasset => ?_
    rw [handleAsset_of_none ((hsame asset hasset).trans hget)]
  · refine iff_of_false (fun h => not_forall_asset key a.data fun asset hasset => ?_) (by simp)
    rw [← h asset hasset, handleAsset_of_some ((hsame asset hasset).trans hget)]

/-- **One search finds what was set exactly when it comes to the manager with the key.** -/
theorem handleAsset_set_iff (moveAsset : Bool) :
    (∀ asset : Asset, asset.key = key →
      (handleAsset path moveAsset (r.store m asset) places).1 = .ok asset.data) ↔
        Reaches r places m path key := by
  induction places with
  | nil =>
    refine iff_of_false (fun h => ?_) (fun h => ?_)
    · cases h { key, data := [] } rfl
    · cases h.asked
  | cons m' places ih =>
    by_cases hm : m' = m
    · subst hm
      by_cases hkey : (r m').getRelativeKey path = key
      · refine iff_of_true (fun asset hasset => ?_) ⟨List.mem_cons_self, by simp, hkey⟩
        have hget : (r.store m' asset m').get path = some asset := by
          rw [store_self, AssetManager.get_set, if_pos (hasset.trans hkey.symm)]
        rw [handleAsset_of_some hget]
      · rw [handleAsset_set_cons, ih]
        · exact iff_of_false (fun h => hkey h.2.key) (fun h => hkey h.key)
        · intro asset hasset
          rw [store_self, AssetManager.get_set, if_neg (by rw [hasset]; exact Ne.symm hkey)]
    · rw [handleAsset_set_cons (fun asset _ => by rw [store_of_ne hm]), ih]
      constructor
      · rintro ⟨hnone, h⟩
        refine ⟨List.mem_cons_of_mem _ h.asked, ?_, h.key⟩
        rw [List.takeWhile_cons_of_pos (by simpa using hm)]
        exact List.forall_mem_cons.2 ⟨hnone, h.first⟩
      · intro h
        have hfirst := h.first
        rw [List.takeWhile_cons_of_pos (by simpa using hm), List.forall_mem_cons] at hfirst
        exact ⟨hfirst.1, (List.mem_cons.1 h.asked).resolve_left (Ne.symm hm), hfirst.2, h.key⟩

theorem handleAsset_error_iff (moveAsset : Bool) :
    (∃ e, (handleAsset path moveAsset r places).1 = .error e) ↔
      ∀ m ∈ places, (r m).get path = none := by
  induction places with
  | nil => simp [handleAsset]
  | cons m places ih =>
    rw [List.forall_mem_cons, ← ih]
    rcases hget : (r m).get path with _ | a
    · rw [handleAsset_of_none hget, and_iff_right rfl]
    · rw [handleAsset_of_some hget]
      simp

/-- A move leaves the managers as they are, but for the one with the key. -/
theorem handleAsset_move {asset : Asset} (h : Reaches r places m path key)
    (hasset : asset.key = key) :
    (handleAsset path true (r.store m asset) places).2 =
      Function.update r m ((((r m).set asset).remove path).moveData key) := by
  induction places with
  | nil => cases h.asked
  | cons m' places ih =>
    by_cases hm : m' = m
    · subst hm
      have hkey : ((r m').set asset).getRelativeKey path = key := by
        rw [AssetManager.getRelativeKey_congr ((r m').rootPath_set asset), h.key]
      have hget : (r.store m' asset m').get path = some asset := by
        rw [store_self, AssetManager.get_set, if_pos (hasset.trans h.key.symm)]
      rw [handleAsset_of_some hget, store_self, hkey, AssetManagers.store]
      simp
    · have hfirst := h.first
      rw [List.takeWhile_cons_of_pos (by simpa using hm), List.forall_mem_cons] at hfirst
      rw [handleAsset_of_none (by rw [store_of_ne hm, hfirst.1])]
      exact ih ⟨(List.mem_cons.1 h.asked).resolve_left (Ne.symm hm), hfirst.2, h.key⟩

/-- After a move the manager has nothing under the path only if the path is the key itself. -/
theorem get_moveData_remove {t : AssetManager} {asset : Asset} (hasset : asset.key = key)
    (hkey : t.getRelativeKey path = key) :
    (((t.set asset).remove path).moveData key).get path = none ↔ path = key := by
  have hmap : ((t.set asset).remove path).assetMap[key]? =
      if path = key then none else some asset := by
    rw [AssetManager.getElem?_remove, AssetManager.getElem?_set, if_pos hasset]
  have hrelative : ((t.set asset).remove path).getRelativeKey path = key :=
    (AssetManager.getRelativeKey_congr rfl path).trans hkey
  rw [AssetManager.moveData]
  by_cases hpath : path = key
  · rw [hmap, if_pos hpath]
    refine iff_of_true ?_ hpath
    rw [AssetManager.get, hrelative, hmap, if_pos hpath]
  · rw [hmap, if_neg hpath]
    refine iff_of_false ?_ hpath
    rw [AssetManager.get_set, if_pos (hasset.trans hrelative.symm)]
    exact Option.some_ne_none _

/-- **A search moves the asset out for good exactly when it comes to the manager with the key, the
key is the path, and no other manager has anything there.** -/
theorem handleAsset_move_iff :
    (∀ asset : Asset, asset.key = key →
      let moved := handleAsset path true (r.store m asset) places
      moved.1 = .ok asset.data ∧ (∃ e, (handleAsset path false moved.2 places).1 = .error e) ∧
        ∃ e, (handleAsset path true moved.2 places).1 = .error e) ↔
      Reaches r places m path key ∧ path = key ∧
        ∀ m' ∈ places, m' ≠ m → (r m').get path = none := by
  simp only [handleAsset_error_iff, and_self]
  -- who has something after the move
  have hafter : ∀ asset : Asset, asset.key = key → Reaches r places m path key →
      ((∀ m' ∈ places, ((handleAsset path true (r.store m asset) places).2 m').get path = none) ↔
        path = key ∧ ∀ m' ∈ places, m' ≠ m → (r m').get path = none) := by
    intro asset hasset hreaches
    rw [handleAsset_move hreaches hasset]
    constructor
    · intro h
      refine ⟨?_, fun m' hm' hne => ?_⟩
      · have hm := h m hreaches.asked
        rw [Function.update_self] at hm
        exact (get_moveData_remove hasset hreaches.key).1 hm
      · have hother := h m' hm'
        rwa [Function.update_of_ne hne] at hother
    · rintro ⟨hpath, hothers⟩ m' hm'
      by_cases hne : m' = m
      · rw [hne, Function.update_self]
        exact (get_moveData_remove hasset hreaches.key).2 hpath
      · rw [Function.update_of_ne hne]
        exact hothers m' hm' hne
  constructor
  · intro h
    have hreaches := (handleAsset_set_iff true).1 fun asset hasset => (h asset hasset).1
    exact ⟨hreaches, (hafter { key, data := [] } rfl hreaches).1 (h _ rfl).2⟩
  · rintro ⟨hreaches, hrest⟩ asset hasset
    exact ⟨(handleAsset_set_iff true).2 hreaches asset hasset,
      (hafter asset hasset hreaches).2 hrest⟩

end Search

/-! ### The path of a key -/

/-- The path of a key, from the working directory. -/
def resolve (cwd key : List Char) : List Char :=
  if key.head? = some '/' then key else cwd ++ key

theorem getAbsUri_asset (cwd key : List Char) :
    (getAbsUri ("asset:".toList ++ key) cwd).drop "asset:".length = resolve cwd key := by
  have hcolon : (("asset:".toList ++ key).idxOf? ':').elim 0 (· + 1) = 6 := by
    simp [List.idxOf?, List.findIdx?_cons]
  have htype : ("asset:".toList ++ key).take 6 = "asset:".toList := List.take_left' rfl
  have hrest : ("asset:".toList ++ key).drop 6 = key := List.drop_left' rfl
  have hsecond : ("asset:".toList ++ key)[6]? = key.head? := by
    rw [List.head?_eq_getElem?, List.getElem?_append_right (by decide)]
    rfl
  rw [getAbsUri]
  generalize hn : (("asset:".toList ++ key).idxOf? ':').elim 0 (· + 1) = n
  obtain rfl := hn.symm.trans hcolon
  rw [htype, hrest, hsecond, resolve]
  split
  · exact hrest
  · rw [List.append_assoc]
    exact List.drop_left' rfl

variable {s}

theorem loadResourceCwd_asset (r : AssetManagers N) (cwd key : List Char) (moveAsset : Bool) :
    s.loadResourceCwd r ("asset:".toList ++ key) cwd moveAsset =
      handleAsset (resolve cwd key) moveAsset r s.places := by
  rw [PipelineImpl.loadResourceCwd, if_pos (List.prefix_append _ _), getAbsUri_asset]

theorem resolve_nodePrefix (cwd : List Char) (id : ℤ) (key : List Char) :
    resolve cwd (nodePrefix id ++ key) = nodePrefix id ++ key := by
  rw [resolve, if_pos]
  simp [nodePrefix]

variable (s)

/-- **What was stored is loaded and moved exactly in these cases.** In the pipeline the manager has
to get the key back from the path. In a node it has to as well, and no manager that is asked before
it may have something at the path. For a move the path has to be the key, and no other manager may
have something there. -/
theorem resource_loading_iff (r : AssetManagers N) (node : N) (key : List Char) :
    (PipelineLoads s r key ↔ (r none).getRelativeKey (resolve "/pipeline".toList key) = key) ∧
    (NodeLoads s r node key ↔
      Reaches r s.places (some node) (resolve (nodePrefix (s.id node)) key) key) ∧
    (AbsoluteLoads s r node key ↔
      Reaches r s.places (some node) (nodePrefix (s.id node) ++ key) key) ∧
    (MovesOnce s r node key ↔
      Reaches r s.places (some node) (resolve (nodePrefix (s.id node)) key) key ∧
        resolve (nodePrefix (s.id node)) key = key ∧
        ∀ m ∈ s.places, m ≠ some node →
          (r m).get (resolve (nodePrefix (s.id node)) key) = none) := by
  refine ⟨?_, ?_, ?_, ?_⟩
  · simp only [PipelineLoads, PipelineImpl.loadResource, loadResourceCwd_asset]
    rw [handleAsset_set_iff]
    refine ⟨fun h => h.key, fun h => ⟨List.mem_cons_self, ?_, h⟩⟩
    rw [PipelineImpl.places, List.takeWhile_cons_of_neg (by simp)]
    simp
  · simp only [NodeLoads, Node.loadResource, loadResourceCwd_asset]
    exact handleAsset_set_iff false
  · simp only [AbsoluteLoads, loadResourceCwd_asset, resolve_nodePrefix]
    rw [← handleAsset_set_iff false]
    exact ⟨fun h => h [], fun h _ => h⟩
  · simp only [MovesOnce, Node.loadResource, Node.moveResource, loadResourceCwd_asset]
    exact handleAsset_move_iff

end Model

/-! ### The root paths of the code -/

section Roots

variable {t : AssetManager} {key : List Char}

/-- The root path of a pipeline is behind a slash that the working directory does not have. -/
theorem getRelativeKey_pipeline_iff (ht : t.rootPath = "/pipeline/".toList) :
    t.getRelativeKey (resolve "/pipeline".toList key) = key ↔ key = [] := by
  have hroot : "/pipeline/".toList = '/' :: "pipeline/".toList := by simp
  have hcwd : "/pipeline".toList = '/' :: "pipeline".toList := by simp
  have hlength : t.rootPath.length = 10 := by rw [ht]; rfl
  by_cases habs : key.head? = some '/'
  · -- the key of an absolute path is shorter, or none
    obtain ⟨rest, rfl⟩ : ∃ rest, key = '/' :: rest := List.head?_eq_some_iff.1 habs
    rw [resolve, if_pos habs, AssetManager.getRelativeKey_absolute]
    refine iff_of_false (fun h => ?_) (List.cons_ne_nil _ _)
    split at h
    · have hshort := congrArg List.length h
      rw [List.length_drop, List.length_cons, hlength] at hshort
      omega
    · exact List.cons_ne_nil _ _ h.symm
  · have hinitial : ¬t.rootPath <+: '/' :: ("pipeline".toList ++ key) := by
      rw [ht, hroot, List.cons_prefix_cons]
      rintro ⟨-, rest, hrest⟩
      have hkey : '/' :: rest = key := by simpa using hrest
      exact habs (by rw [← hkey]; rfl)
    rw [resolve, if_neg habs, hcwd, List.cons_append, AssetManager.getRelativeKey_absolute,
      if_neg hinitial]
    exact eq_comm

/-- A node has no root path, and so it gets back absolute keys only. -/
theorem getRelativeKey_node_iff (ht : t.rootPath = []) (id : ℤ) :
    t.getRelativeKey (resolve (nodePrefix id) key) = key ↔ key.head? = some '/' := by
  have hall (path : List Char) : t.getRelativeKey path = path := by
    cases path <;> simp [AssetManager.getRelativeKey, ht]
  rw [hall, resolve]
  split
  · exact iff_of_true rfl ‹_›
  · refine iff_of_false (fun h => ?_) ‹_›
    have hlength := congrArg List.length h
    simp [nodePrefix] at hlength
    omega

end Roots

/-- **With these root paths an asset under `model` is found in no way.** -/
theorem not_resource_loading :
    let s := PipelineImpl.ofNodes [3]
    let r : AssetManagers ℤ := fun m =>
      if m = none then { rootPath := "/pipeline/".toList } else {}
    let key := "model".toList
    ¬PipelineLoads s r key ∧ ¬NodeLoads s r 3 key ∧ ¬AbsoluteLoads s r 3 key ∧
      ¬MovesOnce s r 3 key := by
  refine ⟨fun h => ?_, fun h => ?_, fun h => ?_, fun h => ?_⟩
  · exact absurd (h ⟨"model".toList, [1], 1⟩ rfl) (by decide +kernel)
  · exact absurd (h ⟨"model".toList, [1], 1⟩ rfl) (by decide +kernel)
  · exact absurd (h [] ⟨"model".toList, [1], 1⟩ rfl) (by decide +kernel)
  · exact absurd (h ⟨"model".toList, [1], 1⟩ rfl).1 (by decide +kernel)

end DepthaiCore
