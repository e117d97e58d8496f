import DepthaiCore.Datatype.SegmentationMask
import Mathlib.Tactic.Positivity

/-!
# The centroid of an index

`getCentroid` goes through the pixels of a mask and takes the mean of the columns and of the rows in
which an index is found. It goes by the size that is stored, and its sums are of type `int32_t`.

The arithmetic of floating point numbers is exact.
-/

namespace DepthaiCore

namespace MaskMessages

/-! ### The function -/

/-- `area`, `sumX` and `sumY`. -/
structure Sums where
  area : ℤ := 0
  sumX : ℤ := 0
  sumY : ℤ := 0
  deriving DecidableEq, Repr

/-- A sum of two `int32_t`. -/
def addInt (a b : ℤ) : Except MaskFault ℤ :=
  if -2 ^ 31 ≤ a + b ∧ a + b < 2 ^ 31 then .ok (a + b) else .error .undefined

/-- A pixel with the index. -/
def Sums.count (s : Sums) (x y : ℕ) : Except MaskFault Sums := do
  let area ← addInt s.area 1
  let sumX ← addInt s.sumX (toInt x)
  let sumY ← addInt s.sumY (toInt y)
  return { area, sumX, sumY }

/-- The body of the loops. -/
def centroidStep (maskData : List UInt8) (width : ℕ) (index : UInt8) (s : Sums) (y x : ℕ) :
    Except MaskFault Sums :=
  match maskData[size_t (y * width + x)]? with
  | none => .error .undefined
  | some value => if value = index then s.count x y else .ok s

/-- What is made of the sums. -/
def Sums.mean (s : Sums) (width height : ℕ) : Option (ℚ × ℚ) :=
  if s.area = 0 then none
  else some ((s.sumX : ℚ) / s.area / width, (s.sumY : ℚ) / s.area / height)

namespace SegmentationMask

variable (this : SegmentationMask) (index : UInt8)

/-- The loops of `getCentroid`. -/
def centroidSums : Except MaskFault Sums :=
  (List.range this.height).foldlM (fun s y => (List.range this.width).foldlM (fun s x =>
    centroidStep this.getMaskData this.width index s y x) s) {}

/-- **`getCentroid`.** -/
def getCentroid : Except MaskFault (Option (ℚ × ℚ)) :=
  if this.getMaskData = [] then .ok none
  else do
    let s ← this.centroidSums index
    return s.mean this.width this.height

end SegmentationMask

/-! ### The pixels with an index -/

/-- The columns and rows, in the order of the loops. -/
def cells (width height : ℕ) : List (ℕ × ℕ) :=
  (List.range height).flatMap fun y => (List.range width).map fun x => (x, y)

theorem mem_cells {width height : ℕ} {c : ℕ × ℕ} :
    c ∈ cells width height ↔ c.1 < width ∧ c.2 < height := by
  obtain ⟨x, y⟩ := c
  simp only [cells, List.mem_flatMap, List.mem_map, List.mem_range, Prod.mk.injEq]
  constructor
  · rintro ⟨_, hy, _, hx, rfl, rfl⟩
    exact ⟨hx, hy⟩
  · rintro ⟨hx, hy⟩
    exact ⟨y, hy, x, hx, rfl, rfl⟩

theorem place_lt {width height : ℕ} {c : ℕ × ℕ} (h : c ∈ cells width height) :
    c.2 * width + c.1 < width * height := by
  obtain ⟨hx, hy⟩ := mem_cells.1 h
  calc c.2 * width + c.1 < c.2 * width + width := Nat.add_lt_add_left hx _
    _ = (c.2 + 1) * width := (Nat.succ_mul _ _).symm
    _ ≤ height * width := Nat.mul_le_mul_right _ hy
    _ = width * height := Nat.mul_comm _ _

namespace Mask

variable (m : Mask) (index : UInt8)

/-- The pixels with an index. -/
def hits : List (ℕ × ℕ) :=
  (cells m.width m.height).filter fun c => m.pixels[c.2 * m.width + c.1]? = some index

/-- The sum of the columns and that of the rows. -/
def columns : ℕ := ((m.hits index).map Prod.fst).sum

def rows : ℕ := ((m.hits index).map Prod.snd).sum

/-- **The mean of the columns and of the rows,** in terms of the size. -/
def centroid : Option (ℚ × ℚ) :=
  if m.hits index = [] then none
  else some ((m.columns index : ℚ) / (m.hits index).length / m.width,
    (m.rows index : ℚ) / (m.hits index).length / m.height)

/-- The number of pixels and the sums are of type `int32_t`. -/
structure Small : Prop where
  area : (m.hits index).length < 2 ^ 31
  columns : m.columns index < 2 ^ 31
  rows : m.rows index < 2 ^ 31

variable {m index}

theorem mem_hits {c : ℕ × ℕ} : c ∈ m.hits index ↔
    (c.1 < m.width ∧ c.2 < m.height) ∧ m.pixels[c.2 * m.width + c.1]? = some index := by
  rw [hits, List.mem_filter, mem_cells, decide_eq_true_iff]

theorem hits_eq_nil_iff : m.hits index = [] ↔ index ∉ m.pixels := by
  constructor
  · intro h hmem
    obtain ⟨k, hk, hpixel⟩ := List.getElem_of_mem hmem
    rw [m.length_eq] at hk
    have hw : 0 < m.width := Nat.pos_of_ne_zero fun hzero => by
      rw [hzero, Nat.zero_mul] at hk
      exact Nat.not_lt_zero _ hk
    have hcell : (k % m.width, k / m.width) ∈ m.hits index := by
      refine mem_hits.2 ⟨⟨Nat.mod_lt _ hw, Nat.div_lt_of_lt_mul hk⟩, ?_⟩
      rw [Nat.mul_comm, Nat.div_add_mod, List.getElem?_eq_getElem (by rwa [m.length_eq]), hpixel]
    rw [h] at hcell
    cases hcell
  · intro h
    refine List.eq_nil_iff_forall_not_mem.2 fun c hc => h ?_
    exact List.mem_of_getElem? (mem_hits.1 hc).2

theorem centroid_eq_none_iff : m.centroid index = none ↔ index ∉ m.pixels := by
  rw [centroid, ← hits_eq_nil_iff]
  split_ifs with h
  · exact iff_of_true rfl h
  · exact iff_of_false nofun h

theorem mean_mem_unit {l : List ℕ} {n : ℕ} (hne : l ≠ []) (hlt : ∀ x ∈ l, x < n) :
    0 ≤ (l.sum : ℚ) / l.length / n ∧ (l.sum : ℚ) / l.length / n < 1 := by
  refine ⟨by positivity, ?_⟩
  have hlen : 0 < l.length := List.length_pos_iff.2 hne
  obtain ⟨x, hx⟩ := List.exists_mem_of_ne_nil l hne
  have hn : 0 < n := Nat.zero_lt_of_lt (hlt x hx)
  have hsum : l.sum ≤ l.length * (n - 1) :=
    List.sum_le_card_nsmul l _ fun x hx => Nat.le_pred_of_lt (hlt x hx)
  have hless : l.sum < l.length * n :=
    hsum.trans_lt (Nat.mul_lt_mul_of_pos_left (Nat.sub_lt hn Nat.one_pos) hlen)
  have hlenQ : (0 : ℚ) < l.length := Nat.cast_pos.2 hlen
  have hnQ : (0 : ℚ) < n := Nat.cast_pos.2 hn
  rw [div_div, div_lt_one (mul_pos hlenQ hnQ)]
  exact_mod_cast hless

theorem centroid_mem_unit {c : ℚ × ℚ} (h : m.centroid index = some c) :
    (0 ≤ c.1 ∧ c.1 < 1) ∧ 0 ≤ c.2 ∧ c.2 < 1 := by
  rw [centroid] at h
  split_ifs at h with hne
  cases h
  constructor
  · have hx := mean_mem_unit (l := (m.hits index).map Prod.fst) (n := m.width)
      (fun h => hne (List.map_eq_nil_iff.1 h)) ?_
    · rwa [List.length_map] at hx
    · intro x hx
      obtain ⟨c, hc, rfl⟩ := List.mem_map.1 hx
      exact (mem_hits.1 hc).1.1
  · have hy := mean_mem_unit (l := (m.hits index).map Prod.snd) (n := m.height)
      (fun h => hne (List.map_eq_nil_iff.1 h)) ?_
    · rwa [List.length_map] at hy
    · intro y hy
      obtain ⟨c, hc, rfl⟩ := List.mem_map.1 hy
      exact (mem_hits.1 hc).1.2

end Mask

/-! ### The sums -/

section Sums

variable {l : List (ℕ × ℕ)} {s t : Sums}

theorem addInt_eq_ok_iff {a b c : ℤ} :
    addInt a b = .ok c ↔ a + b = c ∧ -2 ^ 31 ≤ a + b ∧ a + b < 2 ^ 31 := by
  rw [addInt]
  split_ifs with h
  · exact ⟨fun heq => ⟨Except.ok.inj heq, h⟩, fun heq => congrArg _ heq.1⟩
  · exact iff_of_false nofun fun heq => h heq.2

theorem count_eq_ok {x y : ℕ} (h : s.count x y = .ok t) :
    t = ⟨s.area + 1, s.sumX + toInt x, s.sumY + toInt y⟩ ∧
      t.area < 2 ^ 31 ∧ t.sumX < 2 ^ 31 ∧ t.sumY < 2 ^ 31 := by
  obtain ⟨_, harea, h⟩ := Loop.bind_eq_ok.1 h
  obtain ⟨_, hx, h⟩ := Loop.bind_eq_ok.1 h
  obtain ⟨_, hy, h⟩ := Loop.bind_eq_ok.1 h
  obtain ⟨rfl, -, ha⟩ := addInt_eq_ok_iff.1 harea
  obtain ⟨rfl, -, hx⟩ := addInt_eq_ok_iff.1 hx
  obtain ⟨rfl, -, hy⟩ := addInt_eq_ok_iff.1 hy
  cases h
  exact ⟨rfl, ha, hx, hy⟩

/-- Pixels with the index, one after another. -/
def countAll (l : List (ℕ × ℕ)) (s : Sums) : Except MaskFault Sums :=
  l.foldlM (fun s c => s.count c.1 c.2) s

/-- A sum of the list as the loop takes it. -/
def wrapped (l : List ℕ) : ℤ := (l.map toInt).sum

theorem wrapped_cons (x : ℕ) (l : List ℕ) : wrapped (x :: l) = toInt x + wrapped l := by
  rw [wrapped, List.map_cons, List.sum_cons, wrapped]

theorem countAll_eq_ok (h : countAll l s = .ok t)
    (hs : s.area < 2 ^ 31 ∧ s.sumX < 2 ^ 31 ∧ s.sumY < 2 ^ 31) :
    t = ⟨s.area + l.length, s.sumX + wrapped (l.map Prod.fst),
      s.sumY + wrapped (l.map Prod.snd)⟩ ∧
      t.area < 2 ^ 31 ∧ t.sumX < 2 ^ 31 ∧ t.sumY < 2 ^ 31 := by
  induction l generalizing s with
  | nil =>
    cases h
    simpa [wrapped] using hs
  | cons c l ih =>
    rw [countAll, List.foldlM_cons] at h
    obtain ⟨u, hu, h⟩ := Loop.bind_eq_ok.1 h
    obtain ⟨rfl, hbounds⟩ := count_eq_ok hu
    obtain ⟨rfl, hbounds⟩ := ih h hbounds
    refine ⟨?_, hbounds⟩
    rw [List.map_cons, List.map_cons, wrapped_cons, wrapped_cons, List.length_cons, Nat.cast_succ,
      add_assoc, add_assoc, add_assoc, add_comm (1 : ℤ)]

theorem wrapped_eq {l : List ℕ} (h : ∀ x ∈ l, x < 2 ^ 31) : wrapped l = (l.sum : ℕ) := by
  induction l with
  | nil => rfl
  | cons x l ih =>
    rw [wrapped_cons, List.sum_cons, Nat.cast_add, toInt_eq (h x List.mem_cons_self),
      ih fun x hx => h x (List.mem_cons_of_mem _ hx)]

theorem count_of_small {a b c x y : ℕ} (ha : a + 1 < 2 ^ 31) (hx : b + x < 2 ^ 31)
    (hy : c + y < 2 ^ 31) :
    Sums.count ⟨a, b, c⟩ x y = .ok ⟨(a + 1 : ℕ), (b + x : ℕ), (c + y : ℕ)⟩ := by
  have hadd : ∀ {d z : ℕ}, d + z < 2 ^ 31 → addInt d z = .ok ((d + z : ℕ) : ℤ) := by
    intro d z hlt
    refine addInt_eq_ok_iff.2 ⟨(Nat.cast_add d z).symm, ?_⟩
    omega
  have harea : addInt (a : ℤ) 1 = .ok ((a + 1 : ℕ) : ℤ) := hadd ha
  rw [Sums.count]
  dsimp only
  rw [harea, Loop.ok_bind, toInt_eq (by omega), hadd hx, Loop.ok_bind, toInt_eq (by omega),
    hadd hy]
  rfl

/-- **Sums that fit are taken.** -/
theorem countAll_of_small {a b c : ℕ} (harea : a + l.length < 2 ^ 31)
    (hx : b + (l.map Prod.fst).sum < 2 ^ 31) (hy : c + (l.map Prod.snd).sum < 2 ^ 31) :
    countAll l ⟨a, b, c⟩ =
      .ok ⟨(a + l.length : ℕ), (b + (l.map Prod.fst).sum : ℕ), (c + (l.map Prod.snd).sum : ℕ)⟩ := by
  induction l generalizing a b c with
  | nil => rfl
  | cons p l ih =>
    rw [List.length_cons] at harea
    rw [List.map_cons, List.sum_cons] at hx hy
    rw [countAll, List.foldlM_cons, count_of_small (by omega) (by omega) (by omega), Loop.ok_bind]
    refine (ih (by omega) (by omega) (by omega)).trans ?_
    simp only [List.length_cons, List.map_cons, List.sum_cons, Except.ok.injEq, Sums.mk.injEq]
    omega

end Sums

/-! ### A stored mask -/

namespace SegmentationMask

variable {this : SegmentationMask} {m : Mask} {index : UInt8}

/-- A mask is stored with its size, at the beginning of the data. -/
structure Stores (this : SegmentationMask) (m : Mask) : Prop where
  width : this.width = m.width
  height : this.height = m.height
  pixels : m.pixels <+: this.data
  length_lt : m.pixels.length < 2 ^ 63

/-- **The loops count the pixels with the index.** -/
theorem Stores.centroidSums_eq (h : this.Stores m) : this.centroidSums index =
    countAll (m.hits index) {} := by
  have hnested : this.centroidSums index = (cells m.width m.height).foldlM (fun s c =>
      centroidStep this.getMaskData m.width index s c.2 c.1) {} := by
    rw [cells, Loop.foldlM_flatMap]
    simp only [List.foldlM_map, centroidSums, h.width, h.height]
  rw [hnested, countAll, Mask.hits, List.foldlM_filter]
  refine Loop.foldlM_congr (fun s c hc => ?_) _
  have hlt := place_lt hc
  rw [← m.length_eq] at hlt
  have hpixel : this.getMaskData[size_t (c.2 * m.width + c.1)]? =
      some m.pixels[c.2 * m.width + c.1] := by
    rw [size_t_eq (hlt.trans h.length_lt)]
    exact h.pixels.getElem hlt ▸ List.getElem?_eq_getElem _
  rw [centroidStep, hpixel]
  simp only [List.getElem?_eq_getElem hlt, Option.some.injEq, decide_eq_true_eq]
  rfl

/-- The result is what is made of the sums, also where there is no data. -/
theorem Stores.getCentroid_eq (h : this.Stores m) : this.getCentroid index =
    (countAll (m.hits index) {}).map (·.mean m.width m.height) := by
  rw [getCentroid]
  split_ifs with hempty
  · have hpixels : m.pixels = [] := List.prefix_nil.1 (hempty ▸ h.pixels)
    have hhits : m.hits index = [] := Mask.hits_eq_nil_iff.2 (hpixels ▸ List.not_mem_nil)
    rw [hhits]
    rfl
  · rw [h.centroidSums_eq, h.width, h.height]
    cases countAll (m.hits index) {} with
    | error e => rfl
    | ok s => rfl

theorem mean_eq : Sums.mean ⟨(m.hits index).length, m.columns index, m.rows index⟩ m.width
    m.height = m.centroid index := by
  rw [Sums.mean, Mask.centroid]
  dsimp only
  simp only [Nat.cast_eq_zero, List.length_eq_zero_iff, Int.cast_natCast]

theorem Stores.exists_sums (h : this.Stores m) {result : Option (ℚ × ℚ)}
    (hresult : this.getCentroid index = .ok result) : ∃ s : Sums,
      s = ⟨(m.hits index).length, wrapped ((m.hits index).map Prod.fst),
        wrapped ((m.hits index).map Prod.snd)⟩ ∧
      (s.area < 2 ^ 31 ∧ s.sumX < 2 ^ 31 ∧ s.sumY < 2 ^ 31) ∧
      result = s.mean m.width m.height := by
  rw [h.getCentroid_eq] at hresult
  cases hsums : countAll (m.hits index) {} with
  | error e =>
    rw [hsums] at hresult
    cases hresult
  | ok s =>
    rw [hsums] at hresult
    cases hresult
    obtain ⟨hs, hbounds⟩ := countAll_eq_ok hsums (by decide)
    simp only [zero_add] at hs
    exact ⟨s, hs, hbounds, rfl⟩

theorem Stores.eq_centroid (h : this.Stores m) (hw : m.width ≤ 2 ^ 31) (hh : m.height ≤ 2 ^ 31)
    {result : Option (ℚ × ℚ)} (hresult : this.getCentroid index = .ok result) :
    result = m.centroid index := by
  obtain ⟨s, rfl, -, rfl⟩ := h.exists_sums hresult
  rw [wrapped_eq, wrapped_eq]
  · exact mean_eq
  · intro y hy
    obtain ⟨c, hc, rfl⟩ := List.mem_map.1 hy
    exact (Mask.mem_hits.1 hc).1.2.trans_le hh
  · intro x hx
    obtain ⟨c, hc, rfl⟩ := List.mem_map.1 hx
    exact (Mask.mem_hits.1 hc).1.1.trans_le hw

/-- **A mask that is stored with its size:** the centroid is exact if the sums fit. -/
theorem Stores.getCentroid_eq_iff (h : this.Stores m) :
    this.getCentroid index = .ok (m.centroid index) ↔ m.Small index := by
  constructor
  · intro hresult
    obtain ⟨s, hs, ⟨ha, hx, hy⟩, hmean⟩ := h.exists_sums hresult
    have harea : s.area = (m.hits index).length := congrArg Sums.area hs
    rw [harea] at ha
    have ha : (m.hits index).length < 2 ^ 31 := by omega
    by_cases hne : m.hits index = []
    · refine ⟨ha, ?_, ?_⟩
      · rw [Mask.columns, hne]
        decide
      · rw [Mask.rows, hne]
        decide
    -- There is a pixel, and equal quotients have equal dividends.
    obtain ⟨c, hc⟩ := List.exists_mem_of_ne_nil _ hne
    obtain ⟨⟨hcx, hcy⟩, -⟩ := Mask.mem_hits.1 hc
    have hlen : ((m.hits index).length : ℚ) ≠ 0 := by
      simpa [List.length_eq_zero_iff] using hne
    have hw : (m.width : ℚ) ≠ 0 := Nat.cast_ne_zero.2 (Nat.ne_zero_of_lt hcx)
    have hh : (m.height : ℚ) ≠ 0 := Nat.cast_ne_zero.2 (Nat.ne_zero_of_lt hcy)
    rw [Mask.centroid, if_neg hne, Sums.mean, harea, if_neg (by exact_mod_cast hlen),
      Option.some.injEq, Prod.mk.injEq, Int.cast_natCast, div_left_inj' hw, div_left_inj' hlen,
      div_left_inj' hh, div_left_inj' hlen] at hmean
    obtain ⟨hcolumns, hrows⟩ := hmean
    have hcolumns : (m.columns index : ℤ) = s.sumX := by exact_mod_cast hcolumns
    have hrows : (m.rows index : ℤ) = s.sumY := by exact_mod_cast hrows
    exact ⟨ha, by omega, by omega⟩
  · rintro ⟨ha, hx, hy⟩
    have hsums := countAll_of_small (l := m.hits index) (a := 0) (b := 0) (c := 0)
      (by rwa [Nat.zero_add]) (by rwa [Nat.zero_add]) (by rwa [Nat.zero_add])
    rw [h.getCentroid_eq]
    refine (congrArg _ hsums).trans (congrArg Except.ok ?_)
    simp only [Nat.zero_add]
    exact mean_eq

end SegmentationMask

/-! ### Setting a mask -/

/-- A setter, or `prepareMask` with all pixels written to what it returns. -/
inductive Filling
  | set (call : SegmentationMask.Call)
  | prepareMask (m : PackedMask)

namespace Filling

/-- The mask that is set. -/
def mask : Filling → Mask
  | set call => call.mask
  | prepareMask m => m.toMask

def run (this : SegmentationMask) : Filling → Except MaskFault SegmentationMask
  | set call => call.run this
  | prepareMask m =>
    let prepared := this.prepareMask m.width m.height
    .ok { prepared with data := memcpy prepared.data 0 m.pixels }

/-- Views of the same elements in the same places; around them there may be others. -/
structure SameView (v v' : StridedView UInt8) : Prop where
  offset : v'.offset = v.offset
  stride : v'.stride = v.stride
  rows : v'.rows = v.rows
  cols : v'.cols = v.cols
  length : v'.data.length = v.data.length
  elements : v'.elements = v.elements

/-- The same mask in the same places. -/
def Alike : Filling → Filling → Prop
  | set (.setMaskFrame f), set (.setMaskFrame f') => SameView f.view f'.view
  | set (.setCvMask m), set (.setCvMask m') => SameView m.mat.view m'.mat.view
  | filling, filling' => filling' = filling

end Filling

/-- What `getCentroid` should return: the centroid, none exactly if no pixel has the index, and
otherwise within the unit square. Nothing outside the data is read, and nothing overflows. -/
structure ExactCentroid (m : Mask) (index : UInt8)
    (result : Except MaskFault (Option (ℚ × ℚ))) : Prop where
  eq : result = .ok (m.centroid index)
  none_iff : m.centroid index = none ↔ index ∉ m.pixels
  unit : ∀ c, m.centroid index = some c → (0 ≤ c.1 ∧ c.1 < 1) ∧ 0 ≤ c.2 ∧ c.2 < 1

theorem exactCentroid_iff {m : Mask} {index : UInt8}
    {result : Except MaskFault (Option (ℚ × ℚ))} :
    ExactCentroid m index result ↔ result = .ok (m.centroid index) :=
  ⟨fun h => h.eq, fun h => ⟨h, Mask.centroid_eq_none_iff, fun _ => Mask.centroid_mem_unit⟩⟩

namespace Filling

/-- The centroid is exact, whatever was stored before and whatever is around the mask. -/
def Exact (filling : Filling) (index : UInt8) : Prop :=
  ∀ this filling', filling.Alike filling' → ∀ after, filling'.run this = .ok after →
    ExactCentroid filling.mask index (after.getCentroid index)

/-- The mask has no pixels, or it is stored with its size at the beginning of the data and the sums
fit. -/
def Sound (index : UInt8) : Filling → Prop
  | set (.setMask m) => m.Small index
  | set (.setMaskSpan m) => m.Small index
  | set (.setMaskFrame f) => f.mask.pixels = [] ∨ f.frame.stride = f.frame.width ∧
      (f.frame.data.length = f.mask.width * f.mask.height → f.mask.Small index)
  | set (.setCvMask m) => m.mask.pixels = [] ∨
      (m.mat.isContinuous → m.mat.view.offset = 0) ∧ m.mask.Small index
  | prepareMask m => m.Small index

end Filling

section Fillings

variable {index : UInt8} {m : Mask}

theorem small_of_pixels_eq_nil (h : m.pixels = []) : m.Small index := by
  have hhits : m.hits index = [] := Mask.hits_eq_nil_iff.2 (h ▸ List.not_mem_nil)
  refine ⟨?_, ?_, ?_⟩
  · rw [hhits]
    decide
  · rw [Mask.columns, hhits]
    decide
  · rw [Mask.rows, hhits]
    decide

theorem exact_packed_iff (h : m.pixels.length < 2 ^ 63) :
    ExactCentroid m index (SegmentationMask.getCentroid ⟨m.pixels, m.width, m.height⟩ index) ↔
      m.Small index :=
  exactCentroid_iff.trans
    (SegmentationMask.Stores.getCentroid_eq_iff ⟨rfl, rfl, List.prefix_rfl, h⟩)

/-- **A size from before:** with one that is large enough, something outside the data is read. -/
theorem not_exact_of_size {pixels : List UInt8} (hne : pixels ≠ [])
    (hlt : pixels.length < 2 ^ 63) {result : Option (ℚ × ℚ)} :
    SegmentationMask.getCentroid ⟨pixels, pixels.length + 1, 1⟩ index ≠ .ok result := by
  intro h
  rw [SegmentationMask.getCentroid] at h
  split_ifs at h with hempty
  · exact hne hempty
  obtain ⟨s, hs, -⟩ := Loop.bind_eq_ok.1 h
  obtain ⟨s, hrow, -⟩ := Loop.bind_eq_ok.1 hs
  obtain ⟨u, v, -, hstep⟩ := Loop.exists_round (I := fun _ => True) (fun _ _ _ _ _ => trivial)
    trivial hrow (List.mem_range.2 (Nat.lt_succ_self pixels.length))
  have hnone : pixels[pixels.length]? = none := List.getElem?_eq_none le_rfl
  rw [centroidStep, Nat.zero_mul, Nat.zero_add, size_t_eq hlt] at hstep
  simp only [SegmentationMask.getMaskData, hnone] at hstep
  cases hstep

/-! ### A matrix that begins later -/

theorem exists_cells_eq {width height : ℕ} (hw : 0 < width) (hh : 0 < height) :
    ∃ rest, cells width height = (0, 0) :: rest ∧ ∀ c ∈ rest, c.2 * width + c.1 ≠ 0 := by
  obtain ⟨w, rfl⟩ := Nat.exists_eq_succ_of_ne_zero hw.ne'
  obtain ⟨h, rfl⟩ := Nat.exists_eq_succ_of_ne_zero hh.ne'
  refine ⟨_, by rw [cells, List.range_succ_eq_map (n := h), List.flatMap_cons,
    List.range_succ_eq_map (n := w), List.map_cons, List.cons_append], fun c hc => ?_⟩
  rw [List.mem_append] at hc
  obtain hfirst | hlater := hc
  · obtain ⟨x, hx, rfl⟩ := List.mem_map.1 hfirst
    obtain ⟨x, -, rfl⟩ := List.mem_map.1 hx
    exact (Nat.add_pos_right _ (Nat.succ_pos x)).ne'
  · obtain ⟨y, hy, hc⟩ := List.mem_flatMap.1 hlater
    obtain ⟨y, -, rfl⟩ := List.mem_map.1 hy
    obtain ⟨x, -, rfl⟩ := List.mem_map.1 hc
    exact (Nat.add_pos_left (Nat.mul_pos (Nat.succ_pos y) hw) x).ne'

/-- **One pixel more in the corner** is seen in the centroid. -/
theorem centroid_ne_of_corner {m m' : Mask} (hw : m'.width = m.width) (hh : m'.height = m.height)
    (rest : List (ℕ × ℕ)) (hrest : ∀ c ∈ rest, c.2 * m.width + c.1 ≠ 0)
    (hits : m.hits index = rest) (hits' : m'.hits index = (0, 0) :: rest) :
    m.centroid index ≠ m'.centroid index := by
  intro heq
  rw [Mask.centroid, Mask.centroid, Mask.columns, Mask.rows, Mask.columns, Mask.rows, hits, hits',
    if_neg (List.cons_ne_nil _ _), hw, hh] at heq
  split_ifs at heq with hempty
  obtain ⟨c, hc⟩ := List.exists_mem_of_ne_nil _ hempty
  obtain ⟨⟨hcx, hcy⟩, -⟩ := Mask.mem_hits.1 (hits ▸ hc)
  have hwidth : (m.width : ℚ) ≠ 0 := Nat.cast_ne_zero.2 (Nat.ne_zero_of_lt hcx)
  have hheight : (m.height : ℚ) ≠ 0 := Nat.cast_ne_zero.2 (Nat.ne_zero_of_lt hcy)
  -- A sum that is the same over one element more is zero.
  have hzero : ∀ n : ℕ, (n : ℚ) / rest.length = n / (rest.length + 1 : ℕ) → n = 0 := by
    intro n hn
    have hlen : (0 : ℚ) < rest.length := Nat.cast_pos.2 (List.length_pos_iff.2 hempty)
    rw [div_eq_div_iff hlen.ne' (Nat.cast_ne_zero.2 (Nat.succ_ne_zero _))] at hn
    push_cast at hn
    have hn : (n : ℚ) = 0 := by linarith
    exact_mod_cast hn
  rw [Option.some.injEq, Prod.mk.injEq, div_left_inj' hwidth, div_left_inj' hheight,
    List.map_cons, List.map_cons, List.sum_cons, List.sum_cons, Nat.zero_add, Nat.zero_add,
    List.length_cons] at heq
  have hx : c.1 ≤ 0 := (hzero _ heq.1) ▸
    List.single_le_sum (fun _ _ => Nat.zero_le _) _ (List.mem_map_of_mem hc)
  have hy : c.2 ≤ 0 := (hzero _ heq.2) ▸
    List.single_le_sum (fun _ _ => Nat.zero_le _) _ (List.mem_map_of_mem hc)
  refine hrest c hc ?_
  rw [Nat.le_zero.1 hx, Nat.le_zero.1 hy, Nat.zero_mul]

/-- A mask at the beginning of a list of bytes. -/
def headMask (width height : ℕ) (bytes : List UInt8) (h : width * height ≤ bytes.length) :
    Mask where
  width
  height
  pixels := bytes.take (width * height)
  length_eq := List.length_take_of_le h

/-- The first byte is that of the corner, and of no other cell. -/
theorem hits_headMask {width height : ℕ} {bytes : List UInt8} (b : UInt8)
    (hpos : 0 < width * height) (h : width * height ≤ (bytes.set 0 b).length)
    {rest : List (ℕ × ℕ)} (hcells : cells width height = (0, 0) :: rest)
    (hrest : ∀ c ∈ rest, c.2 * width + c.1 ≠ 0) :
    (headMask width height (bytes.set 0 b) h).hits index = (if b = index then [(0, 0)] else []) ++
      rest.filter fun c => bytes[c.2 * width + c.1]? = some index := by
  have hlength : 0 < bytes.length := hpos.trans_le (by rwa [List.length_set] at h)
  have hcorner : ((bytes.set 0 b).take (width * height))[0 * width + 0]? = some b := by
    rw [Nat.zero_mul, Nat.zero_add, List.getElem?_take_of_lt hpos, List.getElem?_set_self hlength]
  have hothers : rest.filter (fun c =>
      ((bytes.set 0 b).take (width * height))[c.2 * width + c.1]? = some index) =
        rest.filter fun c => bytes[c.2 * width + c.1]? = some index := by
    refine List.filter_congr fun c hc => ?_
    have hlt := place_lt (hcells ▸ List.mem_cons_of_mem _ hc : c ∈ cells width height)
    rw [List.getElem?_take_of_lt hlt, List.getElem?_set_ne (hrest c hc).symm]
  rw [Mask.hits, headMask]
  dsimp only
  rw [hcells, List.filter_cons, hothers, hcorner]
  by_cases hb : b = index
  · rw [if_pos hb, if_pos (decide_eq_true (congrArg some hb))]
    rfl
  · rw [if_neg hb, if_neg fun heq => hb (Option.some.inj (of_decide_eq_true heq))]
    rfl

/-- **The first byte counts** when the centroid is taken of the beginning of the data. -/
theorem exists_centroid_ne {width height : ℕ} {bytes : List UInt8} (hpos : 0 < width * height)
    (h : ∀ b, width * height ≤ (bytes.set 0 b).length) :
    ∃ b b', (headMask width height (bytes.set 0 b) (h b)).centroid index ≠
      (headMask width height (bytes.set 0 b') (h b')).centroid index := by
  obtain ⟨rest, hcells, hrest⟩ :=
    exists_cells_eq (Nat.pos_of_mul_pos_right hpos) (Nat.pos_of_mul_pos_left hpos)
  refine ⟨index + 1, index, centroid_ne_of_corner rfl rfl _ (fun c hc => ?_)
    (hits_headMask _ hpos _ hcells hrest) ?_⟩
  · rw [if_neg (by simp)] at hc
    exact hrest c (List.mem_filter.1 hc).1
  · rw [hits_headMask _ hpos _ hcells hrest, if_pos rfl, if_neg (by simp)]
    rfl

/-- The matrix with another first byte, which is before its elements. -/
def GrayMat.withFirst (m : GrayMat) (b : UInt8) : GrayMat where
  mat := { m.mat with view := { m.mat.view with
    data := m.mat.view.data.set 0 b
    within := fun hrows hcols => by
      rw [List.length_set]
      exact m.mat.view.within hrows hcols } }
  gray := m.gray

theorem sameView_withFirst {m : GrayMat} (hoffset : 0 < m.mat.view.offset) (b : UInt8) :
    Filling.SameView m.mat.view (m.withFirst b).mat.view where
  offset := rfl
  stride := rfl
  rows := rfl
  cols := rfl
  length := List.length_set
  elements := by
    refine congrArg (List.flatMap · _) (funext fun y => ?_)
    rw [StridedView.row, StridedView.row]
    exact congrArg (List.take _) (List.drop_set_of_lt (Nat.add_pos_left hoffset _))

end Fillings

/-! ### Where the centroid is exact -/

namespace Filling

variable {index : UInt8} {this after : SegmentationMask}

theorem SameView.refl (v : StridedView UInt8) : SameView v v :=
  ⟨rfl, rfl, rfl, rfl, rfl, rfl⟩

theorem exact_iff_of_eq {filling : Filling} (halike : ∀ filling', filling.Alike filling' ↔
    filling' = filling) (hlt : filling.mask.pixels.length < 2 ^ 63)
    (hrun : ∀ this, filling.run this =
      .ok ⟨filling.mask.pixels, filling.mask.width, filling.mask.height⟩) :
    filling.Exact index ↔ filling.mask.Small index := by
  rw [← exact_packed_iff hlt]
  constructor
  · intro h
    exact h {} filling ((halike _).2 rfl) _ (hrun _)
  · intro h this filling' hsame after hafter
    rw [(halike _).1 hsame, hrun] at hafter
    cases hafter
    exact h

theorem size_t_mask (m : PackedMask) : m.pixels.length = size_t (m.width * m.height) := by
  rw [← m.length_eq, size_t_eq m.length_lt]

/-- `setMask` of a frame whose rows follow one another. -/
theorem run_frame_of_packed {f : GrayFrame} (hpacked : f.frame.stride = f.frame.width) :
    (set (.setMaskFrame f)).run this =
      if f.frame.data.length = f.mask.width * f.mask.height then
        .ok ⟨f.mask.pixels, f.mask.width, f.mask.height⟩
      else .error (.thrown "SegmentationMask: data size does not match width*height") := by
  have hrun : (set (.setMaskFrame f)).run this =
      this.setMaskSpan f.frame.data f.mask.width f.mask.height := setMaskFrame_of_packed f hpacked
  have hsize : size_t (f.mask.width * f.mask.height) = f.mask.width * f.mask.height :=
    size_t_eq (f.mask.length_eq ▸ length_mask_lt f)
  rw [hrun]
  split_ifs with hlength
  · have hpixels : f.mask.pixels = f.frame.data :=
      StridedView.elements_of_length (v := f.view) (hlength.trans (Nat.mul_comm _ _))
    rw [setMaskSpan_eq (hlength.trans hsize.symm), hpixels]
  · rw [SegmentationMask.setMaskSpan, hsize, if_pos hlength]

theorem run_frame_of_gaps (this : SegmentationMask) (f : GrayFrame)
    (hgaps : f.frame.stride ≠ f.frame.width) (hrows : f.frame.height.toNat ≠ 0) :
    (set (.setMaskFrame f)).run this = .ok { this with data := f.mask.pixels } :=
  (setMaskFrame_of_gaps f hgaps).trans (if_neg hrows)

/-- A call that returns leaves the pixels, and the size if the rows follow one another. -/
theorem run_frame_eq_ok {f : GrayFrame} (h : (set (.setMaskFrame f)).run this = .ok after) :
    after.data = f.mask.pixels ∧ (f.frame.stride = f.frame.width →
      f.frame.data.length = f.mask.width * f.mask.height ∧
        after = ⟨f.mask.pixels, f.mask.width, f.mask.height⟩) := by
  by_cases hpacked : f.frame.stride = f.frame.width
  · rw [run_frame_of_packed hpacked] at h
    split_ifs at h with hlength
    cases h
    exact ⟨rfl, fun _ => ⟨hlength, rfl⟩⟩
  · have hrun : (set (.setMaskFrame f)).run this = _ := setMaskFrame_of_gaps f hpacked
    rw [hrun] at h
    split_ifs at h
    cases h
    exact ⟨rfl, fun h => absurd h hpacked⟩

theorem exists_of_alike_frame {f : GrayFrame} {filling : Filling}
    (h : (set (.setMaskFrame f)).Alike filling) :
    ∃ f', filling = set (.setMaskFrame f') ∧ SameView f.view f'.view := by
  cases filling with
  | set call =>
    cases call with
    | setMaskFrame f' => exact ⟨f', rfl, h⟩
    | setMask _ | setMaskSpan _ | setCvMask _ => cases h
  | prepareMask _ => cases h

theorem exists_of_alike_matrix {m : GrayMat} {filling : Filling}
    (h : (set (.setCvMask m)).Alike filling) :
    ∃ m', filling = set (.setCvMask m') ∧ SameView m.mat.view m'.mat.view := by
  cases filling with
  | set call =>
    cases call with
    | setCvMask m' => exact ⟨m', rfl, h⟩
    | setMask _ | setMaskSpan _ | setMaskFrame _ => cases h
  | prepareMask _ => cases h

theorem exact_frame_iff (f : GrayFrame) :
    (set (.setMaskFrame f)).Exact index ↔ (set (.setMaskFrame f)).Sound index := by
  constructor
  · intro h
    by_cases hempty : f.mask.pixels = []
    · exact .inl hempty
    have hrows : f.frame.height.toNat ≠ 0 := fun hzero => hempty <|
      Mask.pixels_eq_nil_iff.2 (congrArg (f.mask.width * ·) hzero)
    have hpacked : f.frame.stride = f.frame.width := by
      by_contra hgaps
      have hrun := run_frame_of_gaps ⟨[], f.mask.pixels.length + 1, 1⟩ f hgaps hrows
      exact not_exact_of_size hempty (length_mask_lt f)
        (h _ (set (.setMaskFrame f)) (SameView.refl f.view) _ hrun).eq
    refine .inr ⟨hpacked, fun hlength => ?_⟩
    have hrun : (set (.setMaskFrame f)).run {} = _ := run_frame_of_packed hpacked
    rw [if_pos hlength] at hrun
    exact (exact_packed_iff (length_mask_lt f)).1
      (h _ (set (.setMaskFrame f)) (SameView.refl f.view) _ hrun)
  · intro hsound this filling' halike after hrun
    obtain ⟨f', rfl, hsame⟩ := exists_of_alike_frame halike
    obtain ⟨hdata, hpacked'⟩ := run_frame_eq_ok hrun
    have hpixels : f'.mask.pixels = f.mask.pixels := hsame.elements
    have hwidth : f'.mask.width = f.mask.width := hsame.cols
    have hheight : f'.mask.height = f.mask.height := hsame.rows
    rw [hpixels] at hdata
    obtain hempty | ⟨hpacked, hsmall⟩ := hsound
    · have hnone : f.mask.centroid index = none :=
        Mask.centroid_eq_none_iff.2 (hempty ▸ List.not_mem_nil)
      refine exactCentroid_iff.2 ?_
      rw [SegmentationMask.getCentroid]
      exact (if_pos (hdata.trans hempty)).trans (congrArg Except.ok hnone.symm)
    · have hpacked : f'.frame.stride = f'.frame.width := by
        have hstride : f'.frame.stride.toNat = f.frame.stride.toNat := hsame.stride
        have hcols : f'.frame.width.toNat = f.frame.width.toNat := hsame.cols
        rw [← UInt32.toNat_inj, hstride, hcols, hpacked]
      obtain ⟨hlength, rfl⟩ := hpacked' hpacked
      have hbytes : f'.frame.data.length = f.frame.data.length := hsame.length
      rw [hbytes, hwidth, hheight] at hlength
      rw [hpixels, hwidth, hheight]
      exact (exact_packed_iff (length_mask_lt f)).2 (hsmall hlength)

theorem run_matrix (m : GrayMat) : (set (.setCvMask m)).run this =
    .ok ⟨bytesOf m.mat, m.mask.width, m.mask.height⟩ :=
  if_neg (not_not.2 m.gray)

/-- The elements are at the beginning of what is taken from a matrix. -/
theorem prefix_bytesOf {m : GrayMat}
    (h : m.mask.pixels = [] ∨ (m.mat.isContinuous → m.mat.view.offset = 0)) :
    m.mask.pixels <+: bytesOf m.mat := by
  obtain hempty | hplace := h
  · rw [hempty]
    exact List.nil_prefix
  rw [bytesOf]
  split_ifs with hcontinuous
  · have helements := StridedView.elements_of_packed (of_decide_eq_true hcontinuous)
    rw [hplace hcontinuous, List.drop_zero] at helements
    have hpixels : m.mask.pixels = m.mat.view.data.take _ := helements
    rw [hpixels]
    exact List.take_prefix _ _
  · exact List.prefix_rfl

/-- A matrix whose elements follow one another and do not begin with the data. -/
theorem not_exact_of_offset {m : GrayMat} (hempty : m.mask.pixels ≠ [])
    (hcontinuous : m.mat.isContinuous) (hoffset : m.mat.view.offset ≠ 0) :
    ¬(set (.setCvMask m)).Exact index := by
  intro h
  have hpos : 0 < m.mask.width * m.mask.height :=
    Nat.pos_of_ne_zero fun hzero => hempty (Mask.pixels_eq_nil_iff.2 hzero)
  have hle : ∀ b, m.mask.width * m.mask.height ≤ (m.mat.view.data.set 0 b).length := by
    intro b
    have hlength := m.mask.length_eq
    rw [show m.mask.pixels = _ from StridedView.elements_of_packed (of_decide_eq_true hcontinuous),
      List.length_take, List.length_drop] at hlength
    rw [List.length_set]
    omega
  have heq : ∀ b, m.mask.centroid index =
      (headMask m.mask.width m.mask.height (m.mat.view.data.set 0 b) (hle b)).centroid index := by
    intro b
    have hexact := (h {} (set (.setCvMask (m.withFirst b)))
      (sameView_withFirst (Nat.pos_of_ne_zero hoffset) b) _ (run_matrix _)).eq
    have hbytes : bytesOf (m.withFirst b).mat = m.mat.view.data.set 0 b := if_pos hcontinuous
    rw [hbytes] at hexact
    refine SegmentationMask.Stores.eq_centroid ⟨rfl, rfl, List.take_prefix _ _, ?_⟩
      m.mat.cols_lt.le m.mat.rows_lt.le hexact
    have hlt := length_matrix_lt m
    rw [m.mask.length_eq] at hlt
    rwa [Mask.length_eq]
  obtain ⟨b, b', hne⟩ := @exists_centroid_ne index _ _ _ hpos hle
  exact hne ((heq b).symm.trans (heq b'))

theorem exact_matrix_iff (m : GrayMat) :
    (set (.setCvMask m)).Exact index ↔ (set (.setCvMask m)).Sound index := by
  have hstores : ∀ m' : GrayMat, SameView m.mat.view m'.mat.view →
      (m.mask.pixels = [] ∨ (m.mat.isContinuous → m.mat.view.offset = 0)) →
      SegmentationMask.Stores ⟨bytesOf m'.mat, m'.mask.width, m'.mask.height⟩ m.mask := by
    intro m' hsame hplace
    have hpixels : m'.mask.pixels = m.mask.pixels := hsame.elements
    refine ⟨hsame.cols, hsame.rows, hpixels ▸ prefix_bytesOf ?_, length_matrix_lt m⟩
    rw [hpixels, hsame.offset]
    refine hplace.imp_right fun hcontinuous hcontinuous' => hcontinuous ?_
    refine decide_eq_true ?_
    have hpacked : m'.mat.view.Packed := of_decide_eq_true hcontinuous'
    rwa [StridedView.Packed, hsame.rows, hsame.stride, hsame.cols] at hpacked
  constructor
  · intro h
    by_cases hempty : m.mask.pixels = []
    · exact .inl hempty
    have hplace : m.mat.isContinuous → m.mat.view.offset = 0 := by
      intro hcontinuous
      by_contra hoffset
      exact not_exact_of_offset hempty hcontinuous hoffset h
    have hexact := (h {} (set (.setCvMask m)) (SameView.refl m.mat.view) _ (run_matrix m)).eq
    exact .inr ⟨hplace,
      (hstores m (SameView.refl m.mat.view) (.inr hplace)).getCentroid_eq_iff.1 hexact⟩
  · intro hsound this filling' halike after hrun
    obtain ⟨m', rfl, hsame⟩ := exists_of_alike_matrix halike
    rw [run_matrix] at hrun
    cases hrun
    obtain hempty | ⟨hplace, hsmall⟩ := hsound
    · exact exactCentroid_iff.2
        ((hstores m' hsame (.inl hempty)).getCentroid_eq_iff.2 (small_of_pixels_eq_nil hempty))
    · exact exactCentroid_iff.2 ((hstores m' hsame (.inr hplace)).getCentroid_eq_iff.2 hsmall)

/-- **The centroid is exact** exactly if the mask is stored with its size at the beginning of the
data and the number of its pixels and the sums of their columns and rows fit. -/
theorem exact_iff (filling : Filling) (index : UInt8) :
    filling.Exact index ↔ filling.Sound index := by
  cases filling with
  | set call =>
    cases call with
    | setMask m =>
      exact exact_iff_of_eq (fun _ => Iff.rfl) m.length_lt fun this =>
        if_neg (not_not.2 (size_t_mask m))
    | setMaskSpan m =>
      exact exact_iff_of_eq (fun _ => Iff.rfl) m.length_lt fun this =>
        setMaskSpan_eq (size_t_mask m)
    | setMaskFrame f => exact exact_frame_iff f
    | setCvMask m => exact exact_matrix_iff m
  | prepareMask m =>
    refine exact_iff_of_eq (fun _ => Iff.rfl) m.length_lt fun this => ?_
    have hlength : (setSize this.data (size_t (m.width * m.height))).length = m.pixels.length := by
      rw [length_setSize, size_t_mask]
    exact congrArg (fun data => Except.ok (⟨data, m.width, m.height⟩ : SegmentationMask))
      (memcpy_all hlength)

theorem getCentroid_of_size_zero (data : List UInt8) :
    SegmentationMask.getCentroid ⟨data, 0, 0⟩ index = .ok none := by
  rw [SegmentationMask.getCentroid]
  split_ifs
  · rfl
  · rfl

/-- **A frame with gaps between its rows:** a new mask keeps the size zero, and the index of the
first pixel is not found. -/
theorem not_exact_gapFrame : ¬(set (.setMaskFrame gapFrame)).Exact 7 := by
  intro h
  have hrun := run_frame_of_gaps {} gapFrame (by decide) (by decide)
  obtain ⟨heq, hnone, -⟩ := h {} (set (.setMaskFrame gapFrame)) (SameView.refl gapFrame.view) _ hrun
  rw [getCentroid_of_size_zero, Except.ok.injEq] at heq
  have hpixel : (7 : UInt8) ∈ gapFrame.mask.pixels := by decide
  exact hnone.1 heq.symm hpixel

end Filling

end MaskMessages

end DepthaiCore
