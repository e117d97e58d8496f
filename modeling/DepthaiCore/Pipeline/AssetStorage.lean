import DepthaiCore.Pipeline.AssetManager
import Mathlib.Data.UInt

/-!
# The layout of the asset storage

The loop of `AssetManager::serialize` appends one block after another, whatever manager it comes
from. So the storage of a pipeline is the layout of all its assets in turn, as long as the sizes
and the padding together stay below what 32 bits can tell.
-/

namespace DepthaiCore

open BlockLayout

/-- The alignment is a power of two. -/
def Asset.PowerOfTwo (a : Asset) : Prop :=
  a.alignment.toNat.isPowerOfTwo

instance (a : Asset) : Decidable a.PowerOfTwo :=
  inferInstanceAs (Decidable a.alignment.toNat.isPowerOfTwo)

/-- The assets as blocks, under their keys in the storage. -/
def assetBlocks : Blocks (List Char × Asset) UInt8 where
  data x := x.2.data
  alignment x := x.2.alignment.toNat
  fill := 0

/-- What is written down for an asset at a position. -/
def assetEntry (p : ℕ × List Char × Asset) : List Char × AssetInternal :=
  (p.2.1, { offset := .ofNat p.1, size := .ofNat p.2.2.data.length, alignment := p.2.2.alignment })

/-- The map and the storage after the blocks `l`. -/
def laidOut (st : AssetsMutable × List UInt8) (l : List (List Char × Asset)) :
    AssetsMutable × List UInt8 :=
  (⟨st.1.map.insertMany ((assetBlocks.place st.2.length l).map assetEntry)⟩,
    assetBlocks.storage st.2 l)

theorem laidOut_append (st : AssetsMutable × List UInt8) (l l' : List (List Char × Asset)) :
    laidOut st (l ++ l') = laidOut (laidOut st l) l' := by
  rw [laidOut, assetBlocks.place_append, List.map_append, Std.TreeMap.insertMany_append,
    assetBlocks.storage_append]
  rfl

theorem length_laidOut (st : AssetsMutable × List UInt8) (l : List (List Char × Asset)) :
    (laidOut st l).2.length = assetBlocks.size st.2.length l :=
  assetBlocks.length_storage st.2 l

/-! ### One asset -/

namespace AssetManager

theorem toAdd_eq {a : Asset} (ha : a.PowerOfTwo) (n : ℕ) :
    toAdd a.alignment n = padding a.alignment.toNat n := by
  obtain ⟨k, hk⟩ := ha
  have hlt : a.alignment.toNat < 2 ^ 32 := UInt32.toNat_lt _
  have hle : a.alignment.toNat ≤ 2 ^ 31 := by
    rw [hk] at hlt ⊢
    have hk' : k < 32 := (Nat.pow_lt_pow_iff_right (by decide)).1 hlt
    exact Nat.pow_le_pow_right (by decide) (by omega)
  have hmod : n % a.alignment.toNat < a.alignment.toNat :=
    Nat.mod_lt _ (by rw [hk]; exact Nat.two_pow_pos k)
  rw [toAdd, padding]
  by_cases hzero : n % a.alignment.toNat = 0
  · rw [if_neg (by simp [hzero]), if_pos hzero]
    rfl
  · rw [if_pos ⟨by omega, hzero⟩, if_neg hzero, Int.bmod_def]
    omega

theorem ofInt_natCast (p : ℕ) : UInt32.ofInt (p : ℤ) = UInt32.ofNat p := by
  apply UInt32.toNat.inj
  simp only [UInt32.ofInt, UInt32.toNat_ofNat']
  omega

theorem resize_add (storage : List UInt8) (p : ℕ) :
    resize storage (storage.length + p) = storage ++ List.replicate p 0 := by
  rw [resize, List.take_of_length_le (by omega), Nat.add_sub_cancel_left]

/-- **One round of the loop appends one block.** -/
theorem serializeAsset_eq {pre : List Char} {st : AssetsMutable × List UInt8} {a : Asset}
    (ha : a.PowerOfTwo) (hlt : assetBlocks.size st.2.length [(pre ++ a.key, a)] < 2 ^ 64) :
    serializeAsset pre st a = laidOut st [(pre ++ a.key, a)] := by
  have hlt' : st.2.length + padding a.alignment.toNat st.2.length < 2 ^ 64 :=
    Nat.lt_of_le_of_lt (Nat.le_add_right _ _) hlt
  have hmod : ((st.2.length + (padding a.alignment.toNat st.2.length : ℤ)) % 2 ^ 64).toNat =
      st.2.length + padding a.alignment.toNat st.2.length := by omega
  rw [serializeAsset]
  simp only [toAdd_eq ha]
  rw [hmod, resize_add]
  have hoffset : UInt32.ofNat st.2.length +
      UInt32.ofInt (padding a.alignment.toNat st.2.length : ℤ) =
        UInt32.ofNat (st.2.length + padding a.alignment.toNat st.2.length) := by
    rw [UInt32.ofNat_add, ofInt_natCast]
  rw [hoffset]
  rfl

/-! ### One manager -/

/-- The assets under the keys that they get in the storage. -/
def stored (t : AssetManager) (pre : List Char) : List (List Char × Asset) :=
  t.assetMap.toList.map fun kv => (pre ++ kv.2.key, kv.2)

theorem serialize_eq (t : AssetManager) {st : AssetsMutable × List UInt8} {pre : List Char}
    (hpre : pre ≠ []) (hpow : ∀ x ∈ t.stored pre, x.2.PowerOfTwo)
    (hlt : assetBlocks.size st.2.length (t.stored pre) < 2 ^ 64) :
    t.serialize st pre = laidOut st (t.stored pre) := by
  have hempty : pre.isEmpty = false := by simpa using hpre
  rw [serialize, hempty]
  rw [stored] at hpow hlt ⊢
  generalize t.assetMap.toList = l at hpow hlt ⊢
  simp only [Bool.false_eq_true, if_false]
  induction l generalizing st with
  | nil => rfl
  | cons kv l ih =>
    rw [List.map_cons] at hpow hlt ⊢
    have hone : assetBlocks.size st.2.length [(pre ++ kv.2.key, kv.2)] < 2 ^ 64 :=
      Nat.lt_of_le_of_lt (assetBlocks.le_size _ _) hlt
    have hpow' := List.forall_mem_cons.1 hpow
    rw [List.foldl_cons, serializeAsset_eq hpow'.1 hone, ih hpow'.2]
    · exact (laidOut_append st [_] _).symm
    · rw [length_laidOut]
      exact hlt

theorem map_fst_stored (t : AssetManager) (pre : List Char) :
    (t.stored pre).map Prod.fst = t.assetMap.keys.map (pre ++ ·) := by
  rw [stored, ← Std.TreeMap.map_fst_toList_eq_keys, List.map_map, List.map_map]
  refine List.map_congr_left fun kv hkv => ?_
  have hkey := t.keyed kv.1 kv.2 (Std.TreeMap.mem_toList_iff_getElem?_eq_some.1 hkv)
  simp [hkey]

theorem nodup_stored (t : AssetManager) (pre : List Char) :
    ((t.stored pre).map Prod.fst).Nodup := by
  rw [map_fst_stored]
  exact Std.TreeMap.nodup_keys.map (List.append_right_injective pre)

end AssetManager

/-! ### All managers -/

namespace PipelineImpl

variable {N O I P : Type*} (s : PipelineImpl N O I P) (getAssetManager : N → AssetManager)

/-- The assets of a node, under their keys. -/
def storedNode (node : N) : List (List Char × Asset) :=
  (getAssetManager node).stored (nodePrefix (s.id node))

/-- The assets of the pipeline and of its nodes in turn. -/
def stored (assetManager : AssetManager) (nodes : List N) : List (List Char × Asset) :=
  assetManager.stored "/pipeline/".toList ++ nodes.flatMap (s.storedNode getAssetManager)

theorem nodePrefix_ne_nil (id : ℤ) : nodePrefix id ≠ [] := by
  simp [nodePrefix]

theorem serializeNodes_eq {st : AssetsMutable × List UInt8} {nodes : List N}
    (hpow : ∀ x ∈ nodes.flatMap (s.storedNode getAssetManager), x.2.PowerOfTwo)
    (hlt : assetBlocks.size st.2.length (nodes.flatMap (s.storedNode getAssetManager)) < 2 ^ 64) :
    s.serializeNodes getAssetManager st nodes =
      laidOut st (nodes.flatMap (s.storedNode getAssetManager)) := by
  induction nodes generalizing st with
  | nil => rfl
  | cons node nodes ih =>
    rw [List.flatMap_cons] at hpow hlt ⊢
    rw [assetBlocks.size_append] at hlt
    have hone : assetBlocks.size st.2.length (s.storedNode getAssetManager node) < 2 ^ 64 :=
      Nat.lt_of_le_of_lt (assetBlocks.le_size _ _) hlt
    have hpow' := List.forall_mem_append.1 hpow
    rw [serializeNodes, List.foldl_cons,
      AssetManager.serialize_eq _ (nodePrefix_ne_nil _) hpow'.1 hone, laidOut_append]
    refine ih hpow'.2 ?_
    rw [length_laidOut]
    exact hlt

theorem serializeNodes_stored {assetManager : AssetManager} {nodes : List N}
    (hpow : ∀ x ∈ s.stored getAssetManager assetManager nodes, x.2.PowerOfTwo)
    (hlt : assetBlocks.size 0 (s.stored getAssetManager assetManager nodes) < 2 ^ 64) :
    s.serializeNodes getAssetManager (assetManager.serialize ({}, []) "/pipeline/".toList) nodes =
      laidOut ({}, []) (s.stored getAssetManager assetManager nodes) := by
  rw [stored] at hpow hlt ⊢
  have hpow' := List.forall_mem_append.1 hpow
  rw [assetBlocks.size_append] at hlt
  have hone := Nat.lt_of_le_of_lt (assetBlocks.le_size _ _) hlt
  have hfirst : assetManager.serialize ({}, []) "/pipeline/".toList =
      laidOut ({}, []) (assetManager.stored "/pipeline/".toList) :=
    assetManager.serialize_eq (by simp) hpow'.1 hone
  rw [hfirst, laidOut_append]
  refine s.serializeNodes_eq getAssetManager hpow'.2 ?_
  rw [length_laidOut]
  exact hlt

/-! ### Keys -/

theorem nodePrefix_append_inj {i j : ℤ} {a b : List Char}
    (h : nodePrefix i ++ a = nodePrefix j ++ b) : i = j := by
  simp only [nodePrefix, String.toList_append, List.append_assoc] at h
  have h' := List.append_cancel_left h
  have := (Separators.append_cons_inj (Separators.slash_notMem_toString i)
    (Separators.slash_notMem_toString j)).1 h'
  exact Separators.toString_injective (String.toList_inj.1 this.1)

theorem nodePrefix_append_ne (i : ℤ) (a b : List Char) :
    "/pipeline/".toList ++ a ≠ nodePrefix i ++ b := by
  simp [nodePrefix]

/-- **The assets of all managers have different keys.** -/
theorem nodup_stored {assetManager : AssetManager} {nodes : List N}
    (hids : (nodes.map s.id).Nodup) :
    ((s.stored getAssetManager assetManager nodes).map Prod.fst).Nodup := by
  have hnode : ∀ node ∈ nodes, ∀ key ∈ (s.storedNode getAssetManager node).map Prod.fst,
      ∃ k, key = nodePrefix (s.id node) ++ k := by
    intro node _ key hkey
    rw [storedNode, AssetManager.map_fst_stored, List.mem_map] at hkey
    obtain ⟨k, -, rfl⟩ := hkey
    exact ⟨k, rfl⟩
  rw [stored, List.map_append, List.map_flatMap, List.nodup_append, List.nodup_flatMap]
  refine ⟨AssetManager.nodup_stored _ _, ⟨?_, ?_⟩, ?_⟩
  · intro node _
    exact AssetManager.nodup_stored _ _
  · rw [List.Nodup, List.pairwise_map] at hids
    refine hids.imp_of_mem fun {m n} hm hn hne key hkey hkey' => hne ?_
    obtain ⟨k, rfl⟩ := hnode m hm key hkey
    obtain ⟨k', heq⟩ := hnode n hn _ hkey'
    exact nodePrefix_append_inj heq
  · intro key hkey key' hkey'
    rw [AssetManager.map_fst_stored, List.mem_map] at hkey
    obtain ⟨k, -, rfl⟩ := hkey
    obtain ⟨node, hmem, hkey'⟩ := List.mem_flatMap.1 hkey'
    obtain ⟨k', rfl⟩ := hnode node hmem key' hkey'
    exact nodePrefix_append_ne _ _ _

end PipelineImpl

/-! ### The layout -/

/-- Every asset of `l` has one entry, which no other asset has, for an aligned place in the storage
that has its bytes, and the places do not overlap. -/
structure AssetLayout (l : List (List Char × Asset)) (r : AssetsMutable × List UInt8) : Prop where
  distinct : (l.map Prod.fst).Nodup
  size : r.1.map.size = l.length
  entry : ∀ x ∈ l, ∃ e, r.1.map[x.1]? = some e ∧ e.size.toNat = x.2.data.length ∧
    e.alignment = x.2.alignment ∧ x.2.alignment.toNat ∣ e.offset.toNat ∧
    Holds r.2 e.offset.toNat x.2.data
  disjoint : ∀ x ∈ l, ∀ y ∈ l, x.1 ≠ y.1 →
    ∀ e f, r.1.map[x.1]? = some e → r.1.map[y.1]? = some f →
      e.offset.toNat + e.size.toNat ≤ f.offset.toNat ∨
        f.offset.toNat + f.size.toNat ≤ e.offset.toNat

/-- `r'` has all that `r` has. -/
structure AssetLayout.Extends (r r' : AssetsMutable × List UInt8) : Prop where
  storage : r.2 <+: r'.2
  entry : ∀ (key : List Char) (e : AssetInternal), r.1.map[key]? = some e → r'.1.map[key]? = some e

section Layout

variable {l l' : List (List Char × Asset)}

theorem map_fst_place (n : ℕ) (l : List (List Char × Asset)) :
    ((assetBlocks.place n l).map assetEntry).map Prod.fst = l.map Prod.fst := by
  conv_rhs => rw [← assetBlocks.map_snd_place n l]
  rw [List.map_map, List.map_map]
  rfl

theorem pairwise_entries (n : ℕ) (h : (l.map Prod.fst).Nodup) :
    ((assetBlocks.place n l).map assetEntry).Pairwise
      fun a b => ¬compare a.1 b.1 = .eq := by
  rw [← map_fst_place n l, List.Nodup, List.pairwise_map] at h
  exact h.imp fun hne heq => hne (Std.LawfulEqCmp.eq_of_compare heq)

theorem getElem?_laidOut (h : (l.map Prod.fst).Nodup) {p : ℕ × List Char × Asset}
    (hp : p ∈ assetBlocks.place 0 l) :
    (laidOut ({}, []) l).1.map[p.2.1]? = some (assetEntry p).2 :=
  Std.TreeMap.getElem?_insertMany_list_of_mem Std.ReflCmp.compare_self (pairwise_entries _ h)
    (List.mem_map.2 ⟨p, hp, rfl⟩)

theorem stop_le_size {p : ℕ × List Char × Asset} (hp : p ∈ assetBlocks.place 0 l) :
    p.1 + p.2.2.data.length ≤ assetBlocks.size 0 l := by
  have hholds := assetBlocks.holds_of_mem_place (s := []) hp
  have hinside := hholds.inside
  rw [assetBlocks.length_storage] at hinside
  exact hinside

/-- **The layout is sound below `2 ^ 32` bytes.** -/
theorem assetLayout_laidOut (h : (l.map Prod.fst).Nodup) (hpow : ∀ x ∈ l, x.2.PowerOfTwo)
    (hlt : assetBlocks.size 0 l < 2 ^ 32) : AssetLayout l (laidOut ({}, []) l) := by
  have hplace : ∀ x ∈ l, ∃ n, (n, x) ∈ assetBlocks.place 0 l := by
    intro x hx
    rw [← assetBlocks.map_snd_place 0 l, List.mem_map] at hx
    obtain ⟨p, hp, rfl⟩ := hx
    exact ⟨p.1, hp⟩
  -- positions and sizes fit into 32 bits
  have hoffset : ∀ {p : ℕ × List Char × Asset}, p ∈ assetBlocks.place 0 l →
      (assetEntry p).2.offset.toNat = p.1 := by
    intro p hp
    have hstop := stop_le_size hp
    exact UInt32.toNat_ofNat_of_lt' (by show p.1 < 2 ^ 32; omega)
  have hsize : ∀ {p : ℕ × List Char × Asset}, p ∈ assetBlocks.place 0 l →
      (assetEntry p).2.size.toNat = p.2.2.data.length := by
    intro p hp
    have hstop := stop_le_size hp
    exact UInt32.toNat_ofNat_of_lt' (by show p.2.2.data.length < 2 ^ 32; omega)
  constructor
  case distinct => exact h
  case size =>
    have hinsert := Std.TreeMap.size_insertMany_list
      (t := (∅ : Std.TreeMap (List Char) AssetInternal)) (pairwise_entries 0 h) (by simp)
    rw [laidOut]
    refine hinsert.trans ?_
    rw [List.length_map, ← List.length_map (f := Prod.snd), assetBlocks.map_snd_place]
    simp
  case entry =>
    intro x hx
    obtain ⟨n, hn⟩ := hplace x hx
    obtain ⟨k, hk⟩ := hpow x hx
    refine ⟨_, getElem?_laidOut h hn, hsize hn, rfl, ?_, ?_⟩
    · rw [hoffset hn]
      have hpos : 0 < assetBlocks.alignment x := by
        show 0 < x.2.alignment.toNat
        rw [hk]
        exact Nat.two_pow_pos k
      exact assetBlocks.aligned_of_mem_place hpos hn
    · rw [hoffset hn]
      exact assetBlocks.holds_of_mem_place hn
  case disjoint =>
    intro x hx y hy hne e f he hf
    obtain ⟨n, hn⟩ := hplace x hx
    obtain ⟨m, hm⟩ := hplace y hy
    rw [getElem?_laidOut h hn] at he
    rw [getElem?_laidOut h hm] at hf
    obtain rfl := Option.some.inj he
    obtain rfl := Option.some.inj hf
    rw [hoffset hn, hoffset hm, hsize hn, hsize hm]
    exact assetBlocks.disjoint_of_mem_place hn hm fun heq => hne (by rw [(Prod.mk.inj heq).2])

theorem extends_laidOut (h : ((l ++ l').map Prod.fst).Nodup) :
    AssetLayout.Extends (laidOut ({}, []) l) (laidOut ({}, []) (l ++ l')) := by
  rw [laidOut_append]
  refine ⟨assetBlocks.prefix_storage _ _, fun key e he => ?_⟩
  rw [laidOut, Std.TreeMap.getElem?_insertMany_list_of_contains_eq_false, he]
  rw [map_fst_place]
  -- a key with an entry is one of `l`, and so none of `l'`
  have hmem : key ∈ l.map Prod.fst := by
    have hkey : key ∈ (laidOut ({}, []) l).1.map := by
      rw [← Std.TreeMap.isSome_getElem?_iff_mem, he]
      rfl
    rw [laidOut, Std.TreeMap.mem_insertMany_list, map_fst_place] at hkey
    simpa using hkey
  rw [List.map_append] at h
  simpa using (List.disjoint_of_nodup_append h) hmem

end Layout

/-! ### The asset storage of a pipeline -/

namespace PipelineImpl

variable {N O I P : Type*} (s : PipelineImpl N O I P) (getAssetManager : N → AssetManager)

/-- **The assets of a pipeline are laid out soundly**, one entry and one place for each asset of
each manager, and no manager touches what the ones before it have stored. The assets with the
padding in front of them take less than `2 ^ 32` bytes. -/
theorem serialize_layout (assetManager : AssetManager)
    (hids : (s.getAllNodes.map s.id).Nodup)
    (hpow : ∀ x ∈ s.stored getAssetManager assetManager s.getAllNodes, x.2.PowerOfTwo)
    (hlt : assetBlocks.size 0 (s.stored getAssetManager assetManager s.getAllNodes) < 2 ^ 32) :
    AssetLayout (s.stored getAssetManager assetManager s.getAllNodes)
        (s.serialize assetManager getAssetManager) ∧
      ∀ earlier later, s.getAllNodes = earlier ++ later →
        AssetLayout.Extends
          (s.serializeNodes getAssetManager
            (assetManager.serialize ({}, []) "/pipeline/".toList) earlier)
          (s.serialize assetManager getAssetManager) := by
  have hkeys : ((s.stored getAssetManager assetManager s.getAllNodes).map Prod.fst).Nodup :=
    s.nodup_stored getAssetManager hids
  have hlt' := Nat.lt_trans hlt (show 2 ^ 32 < 2 ^ 64 by decide)
  rw [serialize, s.serializeNodes_stored getAssetManager hpow hlt']
  refine ⟨assetLayout_laidOut hkeys hpow hlt, fun earlier later hnodes => ?_⟩
  have happend : s.stored getAssetManager assetManager s.getAllNodes =
      s.stored getAssetManager assetManager earlier ++
        later.flatMap (s.storedNode getAssetManager) := by
    rw [hnodes, stored, stored, List.flatMap_append, List.append_assoc]
  rw [happend] at hpow hkeys hlt' ⊢
  rw [assetBlocks.size_append] at hlt'
  rw [s.serializeNodes_stored getAssetManager (List.forall_mem_append.1 hpow).1
    (Nat.lt_of_le_of_lt (assetBlocks.le_size _ _) hlt')]
  exact extends_laidOut hkeys

/-- Two assets of the pipeline, and one of each node. -/
theorem serialize_layout_twoNodes :
    let assetManager := (({} : AssetManager).setData ['a'] [1, 2, 3] 1).setData ['b'] [4] 8
    let s := ofNodes [1, 12]
    let getAssetManager := fun node : ℤ =>
      if node = 1 then ({} : AssetManager).setData ['2', '/', 'a'] [5] 4
      else ({} : AssetManager).setData ['a'] [6, 7] 64
    AssetLayout (s.stored getAssetManager assetManager s.getAllNodes)
        (s.serialize assetManager getAssetManager) ∧
      ∀ earlier later, s.getAllNodes = earlier ++ later →
        AssetLayout.Extends
          (s.serializeNodes getAssetManager
            (assetManager.serialize ({}, []) "/pipeline/".toList) earlier)
          (s.serialize assetManager getAssetManager) :=
  serialize_layout _ _ _ (by decide) (by decide +kernel) (by decide +kernel)

/-- Four assets of one byte, every other one at a multiple of `2 ^ 31`. -/
def farAssets : AssetManager :=
  [['a'], ['b'], ['c'], ['d']].zip [1, 2 ^ 31, 1, 2 ^ 31] |>.foldl
    (fun t x => t.setData x.1 [0] x.2) { keyed := AssetManager.keyed_empty }

/-- **The data alone may be small and the layout unsound**: with the padding the fourth of the
assets begins at `2 ^ 32`, and is written down where the first one is. -/
theorem not_serialize_layout :
    ¬∀ (s : PipelineImpl ℤ Empty Empty Unit) (getAssetManager : ℤ → AssetManager)
      (assetManager : AssetManager), (s.getAllNodes.map s.id).Nodup →
      (∀ x ∈ s.stored getAssetManager assetManager s.getAllNodes, x.2.PowerOfTwo) →
      ((s.stored getAssetManager assetManager s.getAllNodes).map fun x =>
        x.2.data.length).sum < 2 ^ 32 →
      AssetLayout (s.stored getAssetManager assetManager s.getAllNodes)
        (s.serialize assetManager getAssetManager) := by
  intro h
  have hlayout := h (ofNodes []) (fun _ => {}) farAssets (by decide) (by decide +kernel)
    (by decide +kernel)
  let first : ℕ × List Char × Asset := (0, "/pipeline/a".toList, ⟨['a'], [0], 1⟩)
  let last : ℕ × List Char × Asset := (2 ^ 32, "/pipeline/d".toList, ⟨['d'], [0], 2 ^ 31⟩)
  have hserialize : (ofNodes []).serialize farAssets (fun _ => {}) =
      laidOut ({}, []) ((ofNodes []).stored (fun _ => {}) farAssets []) :=
    serializeNodes_stored _ _ (by decide +kernel) (by decide +kernel)
  have hkeys : (((ofNodes []).stored (fun _ => {}) farAssets []).map Prod.fst).Nodup := by
    decide +kernel
  have hfirst := getElem?_laidOut (p := first) hkeys (by decide +kernel)
  have hlast := getElem?_laidOut (p := last) hkeys (by decide +kernel)
  rw [hserialize] at hlayout
  -- both offsets are `0`, and both assets have a byte
  exact absurd (hlayout.disjoint first.2 (by decide +kernel) last.2 (by decide +kernel) (by decide)
    _ _ hfirst hlast) (by decide +kernel)

end PipelineImpl

end DepthaiCore
