import DepthaiCore.Lib.BlockLayout
import DepthaiCore.Lib.Separators
import DepthaiCore.Pipeline.PipelineImpl

/-!
# Assets and their storage

An asset manager keeps assets under their keys. `PipelineImpl::serialize` puts the assets of the
pipeline and of all its nodes into one storage, and writes down under a key with the prefix of the
manager where each of them lies, in 32 bits.
-/

namespace DepthaiCore

open BlockLayout

structure Asset where
  key : List Char
  data : List UInt8
  alignment : UInt32 := 1
  deriving DecidableEq, Repr

structure AssetInternal where
  offset : UInt32
  size : UInt32
  alignment : UInt32
  deriving DecidableEq, Repr

structure AssetsMutable where
  map : Std.TreeMap (List Char) AssetInternal := ∅

def AssetsMutable.set (t : AssetsMutable) (key : List Char) (offset size alignment : UInt32) :
    AssetsMutable :=
  { map := t.map.insert key { offset, size, alignment } }

/-- `AssetManager`. Every asset is under its own key. -/
structure AssetManager where
  assetMap : Std.TreeMap (List Char) Asset := ∅
  rootPath : List Char := []
  keyed : ∀ (key : List Char) (asset : Asset), assetMap[key]? = some asset → asset.key = key := by simp

namespace AssetManager

theorem keyed_empty (key : List Char) (asset : Asset)
    (h : (∅ : Std.TreeMap (List Char) Asset)[key]? = some asset) : asset.key = key := by
  simp at h

variable (t : AssetManager)

/-! ### Keys -/

/-- `AssetManager::getRelativeKey`: of an absolute key what comes after the root path, which is at
its beginning, and of any other absolute key the empty one. -/
def getRelativeKey (key : List Char) : List Char :=
  match key with
  | [] => []
  | c :: _ =>
    if c = '/' then
      if t.rootPath <+: key then key.drop t.rootPath.length else []
    else key

/-- `AssetManager::set(Asset)`. -/
def set (asset : Asset) : AssetManager where
  assetMap := t.assetMap.insert asset.key asset
  rootPath := t.rootPath
  keyed := by
    intro key a h
    rw [Std.TreeMap.getElem?_insert] at h
    split at h
    · rw [← Option.some.inj h]
      exact Std.LawfulEqCmp.eq_of_compare ‹_›
    · exact t.keyed key a h

/-- `AssetManager::set(key, data, alignment)`. -/
def setData (key : List Char) (data : List UInt8) (alignment : UInt32 := 64) : AssetManager :=
  t.set { key, data, alignment }

def get (key : List Char) : Option Asset :=
  t.assetMap[t.getRelativeKey key]?

/-- `AssetManager::remove`: the key is taken as it is. -/
def remove (key : List Char) : AssetManager where
  assetMap := t.assetMap.erase key
  rootPath := t.rootPath
  keyed := by
    intro key' a h
    rw [Std.TreeMap.getElem?_erase] at h
    split at h
    · cases h
    · exact t.keyed key' a h

@[simp] theorem rootPath_set (asset : Asset) : (t.set asset).rootPath = t.rootPath := rfl

/-- The root path alone decides about the relative key. -/
theorem getRelativeKey_congr {t u : AssetManager} (h : t.rootPath = u.rootPath) (key : List Char) :
    t.getRelativeKey key = u.getRelativeKey key := by
  simp only [getRelativeKey, h]

theorem getRelativeKey_absolute (rest : List Char) :
    t.getRelativeKey ('/' :: rest) =
      if t.rootPath <+: '/' :: rest then ('/' :: rest).drop t.rootPath.length else [] := by
  rw [getRelativeKey.eq_def]
  simp only [if_true]

theorem getElem?_set (asset : Asset) (key : List Char) :
    (t.set asset).assetMap[key]? = if asset.key = key then some asset else t.assetMap[key]? := by
  rw [set, Std.TreeMap.getElem?_insert]
  simp only [Std.LawfulEqCmp.compare_eq_iff_eq]

theorem getElem?_remove (key key' : List Char) :
    (t.remove key).assetMap[key']? = if key = key' then none else t.assetMap[key']? := by
  rw [remove, Std.TreeMap.getElem?_erase]
  simp only [Std.LawfulEqCmp.compare_eq_iff_eq]

theorem get_set (asset : Asset) (key : List Char) :
    (t.set asset).get key = if asset.key = t.getRelativeKey key then some asset else t.get key := by
  rw [get, getRelativeKey_congr (t.rootPath_set asset), getElem?_set, get]

/-! ### Storage -/

/-- The size of `storage` is a `size_t`, `toAdd` an `int`. -/
def toAdd (alignment : UInt32) (size : ℕ) : ℤ :=
  if 1 < alignment.toNat ∧ size % alignment.toNat ≠ 0 then
    Int.bmod (alignment.toNat - size % alignment.toNat) (2 ^ 32)
  else 0

def resize (storage : List UInt8) (size : ℕ) : List UInt8 :=
  storage.take size ++ List.replicate (size - storage.length) 0

/-- One round of the loop of `AssetManager::serialize`. -/
def serializeAsset (pre : List Char) (st : AssetsMutable × List UInt8) (a : Asset) :
    AssetsMutable × List UInt8 :=
  let storage := st.2
  let offset := UInt32.ofNat storage.length + UInt32.ofInt (toAdd a.alignment storage.length)
  let storage :=
    resize storage ((storage.length + toAdd a.alignment storage.length) % 2 ^ 64).toNat
  (st.1.set (pre ++ a.key) offset (UInt32.ofNat a.data.length) a.alignment, storage ++ a.data)

def serialize (st : AssetsMutable × List UInt8) (pre : List Char := []) :
    AssetsMutable × List UInt8 :=
  let pre := if pre.isEmpty then t.rootPath else pre
  t.assetMap.toList.foldl (fun st kv => serializeAsset pre st kv.2) st

end AssetManager

section Pipeline

variable {N O I P : Type*}

/-- The prefix of the keys of a node. -/
def nodePrefix (id : ℤ) : List Char :=
  ("/node/" ++ toString id ++ "/").toList

/-- What `PipelineImpl::serialize` does for the nodes in turn. -/
def PipelineImpl.serializeNodes (s : PipelineImpl N O I P) (getAssetManager : N → AssetManager)
    (st : AssetsMutable × List UInt8) (nodes : List N) : AssetsMutable × List UInt8 :=
  nodes.foldl (fun st node => (getAssetManager node).serialize st (nodePrefix (s.id node))) st

/-- `PipelineImpl::serialize`, without the schema. -/
def PipelineImpl.serialize (s : PipelineImpl N O I P) (assetManager : AssetManager)
    (getAssetManager : N → AssetManager) : AssetsMutable × List UInt8 :=
  s.serializeNodes getAssetManager (assetManager.serialize ({}, []) "/pipeline/".toList)
    s.getAllNodes

end Pipeline

/-- A pipeline with nodes that have nothing below them. -/
def PipelineImpl.ofNodes (nodes : List ℤ) : PipelineImpl ℤ Empty Empty Unit where
  self := ()
  isBuild := false
  latestId := 0
  nodes := nodes
  nodeMap := { children := fun _ => [], rank := fun _ => 0, ranked := by simp }
  id := fun node => node
  parent := fun _ => some ()
  connections := fun _ => []
  connectedInputs := fun _ => []
  connectedOutputs := fun _ => []
  nodes_parent := by simp

end DepthaiCore
