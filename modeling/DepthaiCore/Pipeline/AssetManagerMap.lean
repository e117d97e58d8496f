import DepthaiCore.Pipeline.AssetManager

/-!
# The asset manager as a map

`get` takes a key relative to the root path, or with the root path in front. The other calls take a
key as it is, so an asset that is set under an absolute key is not found under it. The manager is a
map of normalised keys exactly as long as the keys it is given to set and to remove are normalised
already.
-/

namespace DepthaiCore

namespace AssetManager

/-- A manager with nothing in it. -/
def ofRootPath (rootPath : List Char) : AssetManager where
  rootPath := rootPath
  keyed := keyed_empty

/-- `AssetManager::set(key, Asset)`. -/
def setAs (t : AssetManager) (key : List Char) (asset : Asset) : AssetManager :=
  t.set { key, data := asset.data, alignment := asset.alignment }

/-- The calls that change the manager. To set a file is to set its bytes. -/
inductive Call
  | set (asset : Asset)
  | setAs (key : List Char) (asset : Asset)
  | setData (key : List Char) (data : List UInt8) (alignment : UInt32)
  | remove (key : List Char)
  deriving DecidableEq, Repr

/-- The key that a call is made with. -/
def Call.key : Call → List Char
  | set asset => asset.key
  | setAs key _ => key
  | setData key _ _ => key
  | remove key => key

/-- The asset that a call sets. -/
def Call.asset : Call → Option Asset
  | set asset => some asset
  | setAs key asset => some { key, data := asset.data, alignment := asset.alignment }
  | setData key data alignment => some { key, data, alignment }
  | remove _ => none

/-- A call. -/
def call (t : AssetManager) : Call → AssetManager
  | .set asset => t.set asset
  | .setAs key asset => t.setAs key asset
  | .setData key data alignment => t.setData key data alignment
  | .remove key => t.remove key

/-- Some calls, one after another. -/
def run (t : AssetManager) (calls : List Call) : AssetManager :=
  calls.foldl call t

/-- What the most recent call with a key of the same normal form has set: nothing if it removes. -/
def mostRecent (norm : List Char → List Char) (calls : List Call) (key : List Char) :
    Option Asset :=
  (calls.reverse.find? fun c => norm c.key = norm key).bind Call.asset

variable (t : AssetManager) (rootPath : List Char)

@[simp] theorem rootPath_call (c : Call) : (t.call c).rootPath = t.rootPath := by
  cases c <;> rfl

@[simp] theorem rootPath_run (calls : List Call) : (t.run calls).rootPath = t.rootPath := by
  induction calls generalizing t with
  | nil => rfl
  | cons c calls ih =>
    show ((t.call c).run calls).rootPath = t.rootPath
    rw [ih, rootPath_call]

theorem getElem?_call (c : Call) (key : List Char) :
    (t.call c).assetMap[key]? = if c.key = key then c.asset else t.assetMap[key]? := by
  cases c with
  | set asset => exact t.getElem?_set asset key
  | setAs key' asset => exact t.getElem?_set _ key
  | setData key' data alignment => exact t.getElem?_set _ key
  | remove key' => exact t.getElem?_remove key' key

theorem mostRecent_concat (norm : List Char → List Char) (calls : List Call) (c : Call)
    (key : List Char) : mostRecent norm (calls ++ [c]) key =
      if norm c.key = norm key then c.asset else mostRecent norm calls key := by
  rw [mostRecent, List.reverse_concat, List.find?_cons]
  by_cases h : norm c.key = norm key <;> simp [h, mostRecent]

/-- **Which keys are their own normal form**: the relative ones, and if there is no root path all.
-/
theorem getRelativeKey_eq_self_iff (key : List Char) :
    t.getRelativeKey key = key ↔ t.rootPath = [] ∨ key.head? ≠ some '/' := by
  cases key with
  | nil => simp [getRelativeKey]
  | cons c rest =>
    by_cases hc : c = '/'
    · subst hc
      rw [getRelativeKey_absolute]
      constructor
      · intro h
        split_ifs at h with hroot
        left
        have hlength := congrArg List.length h
        rw [List.length_drop] at hlength
        have hle := hroot.length_le
        rw [← List.length_eq_zero_iff]
        simp only [List.length_cons] at hlength hle
        omega
      · rintro (h | h)
        · simp [h]
        · simp at h
    · simp [getRelativeKey, hc]

/-- With keys of normal form the manager has what a map has. -/
theorem getElem?_run (calls : List Call)
    (h : ∀ c ∈ calls, (ofRootPath rootPath).getRelativeKey c.key = c.key) (key : List Char) :
    ((ofRootPath rootPath).run calls).assetMap[(ofRootPath rootPath).getRelativeKey key]? =
      mostRecent (ofRootPath rootPath).getRelativeKey calls key := by
  induction calls using List.reverseRecOn with
  | nil => simp [run, ofRootPath, mostRecent]
  | append_singleton calls c ih =>
    have hrun : (ofRootPath rootPath).run (calls ++ [c]) =
        ((ofRootPath rootPath).run calls).call c := List.foldl_concat ..
    have hc := h c (List.mem_append_right _ (List.mem_singleton_self c))
    rw [hrun, getElem?_call, mostRecent_concat, hc,
      ih fun c' hc' => h c' (List.mem_append_left _ hc')]

/-- **The keys with which the manager is a map of normalised keys**: whatever is set and removed
under keys of a set, `get` returns what was set most recently and not removed, if and only if there
is no root path or no key of the set is absolute. -/
theorem get_run_iff (keys : Set (List Char)) :
    (∀ calls : List Call, (∀ c ∈ calls, c.key ∈ keys) → ∀ key,
      ((ofRootPath rootPath).run calls).get key =
        mostRecent (ofRootPath rootPath).getRelativeKey calls key) ↔
      rootPath = [] ∨ ∀ key ∈ keys, key.head? ≠ some '/' := by
  have hnormal (key : List Char) : (ofRootPath rootPath).getRelativeKey key = key ↔
      rootPath = [] ∨ key.head? ≠ some '/' := getRelativeKey_eq_self_iff _ key
  have hget (calls : List Call) (key : List Char) : ((ofRootPath rootPath).run calls).get key =
      ((ofRootPath rootPath).run calls).assetMap[(ofRootPath rootPath).getRelativeKey key]? := by
    rw [get, getRelativeKey_congr (rootPath_run _ calls)]
  have hall : (∀ key ∈ keys, (ofRootPath rootPath).getRelativeKey key = key) ↔
      rootPath = [] ∨ ∀ key ∈ keys, key.head? ≠ some '/' := by
    simp only [hnormal]
    constructor
    · intro h
      by_cases hroot : rootPath = []
      · exact .inl hroot
      · exact .inr fun key hkey => (h key hkey).resolve_left hroot
    · rintro (hroot | h) key hkey
      · exact .inl hroot
      · exact .inr (h key hkey)
  rw [← hall]
  constructor
  · intro h key hkey
    -- Set one asset, and look for it under the same key.
    have hfound := h [.set { key, data := [] }] (by simpa [Call.key] using hkey) key
    have hset : (ofRootPath rootPath).run [.set { key, data := [] }] =
        (ofRootPath rootPath).set { key, data := [] } := rfl
    rw [hset, get_set] at hfound
    by_contra hne
    rw [if_neg (Ne.symm hne)] at hfound
    simp [mostRecent, Call.key, Call.asset, get, ofRootPath] at hfound
  · intro h calls hcalls key
    rw [hget, getElem?_run rootPath calls fun c hc => h c.key (hcalls c hc)]

/-- What is set under an absolute key is not found under it. -/
theorem get_set_absolute :
    ∃ (rootPath key : List Char) (asset : Asset),
      ((ofRootPath rootPath).run [.setAs key asset]).get key = none ∧
        mostRecent (ofRootPath rootPath).getRelativeKey [.setAs key asset] key ≠ none := by
  refine ⟨"/node/0/".toList, "/node/0/blob".toList, { key := [], data := [1] }, ?_, ?_⟩
  · decide
  · decide

end AssetManager

end DepthaiCore
