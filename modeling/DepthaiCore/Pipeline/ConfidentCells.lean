import DepthaiCore.Lib.Harvest
import DepthaiCore.Pipeline.YoloDecoders

/-!
# The decoders keep the confident cells

A decoder should make one candidate of each cell whose objectness and confidence reach the threshold
and whose box has an area, and label it with a class of the greatest score.

The loop over the classes starts with the score zero. Where the confidence is a probability, what
does not exceed zero is below the threshold anyway. `decodeV3AB` compares logits, which may all be
negative, and `decodeEndToEnd` does not check the confidence and looks at the first row only.
-/

namespace DepthaiCore.DetectionParserUtils

open NN (NNData NNDataViewer Numbers StorageOrder TensorInfo)

variable {T K β : Type}

/-! ### What should be kept -/

/-- A layer and its index. -/
def indexed (strideIdx : ℕ) (layer : Layer K) : List (ℕ × Layer K) :=
  [(strideIdx, layer)]

/-- A class whose score is maximal. -/
structure Cell.Best [LE K] (cell : Cell K) (numClasses c : ℕ) : Prop where
  lt : c < numClasses
  le : ∀ k < numClasses, cell.score k ≤ cell.score c

section Spec

variable [Field K] [LinearOrder K]

section OneCell

variable (nnData : NNOutput K) (parser : DetectionParserOptions K)

/-- The box has an area within the input. -/
def HasArea (item : Place × Cell K) : Prop :=
  (clampedCandidate nnData item.1 item.2 0 0).Proper

/-- A candidate is right for a cell. -/
structure Fits (item : Place × Cell K) (candidate : DetectionCandidate K) : Prop where
  objectness : parser.confidenceThreshold ≤ item.2.objectness
  best : item.2.Best parser.classes candidate.label
  score_eq : candidate.score = item.2.confidence (item.2.score candidate.label)
  confident : parser.confidenceThreshold ≤ candidate.score
  area : HasArea nnData item
  eq : candidate = clampedCandidate nnData item.1 item.2 candidate.score candidate.label

/-- A cell should have a candidate. -/
structure Due (item : Place × Cell K) : Prop where
  objectness : parser.confidenceThreshold ≤ item.2.objectness
  confident : ∃ c, item.2.Best parser.classes c ∧
    parser.confidenceThreshold ≤ item.2.confidence (item.2.score c)
  area : HasArea nnData item

end OneCell

section AllCells

variable (N : Numbers T K) (sigmoid exp : K → K) (nnData : NNOutput K)
  (parser : DetectionParserOptions K)

/-- The layers that are decoded, with their indices, if the checks of the decoder pass. -/
def acceptedLayers : Except Failure (List (ℕ × Layer K)) :=
  match parser.decodingFamily with
  | .R1AF | .TLBR => anchorFree N nnData parser "Invalid input dimensions" indexed
  | .v3AB | .v5AB => anchorBased N nnData parser indexed
  | .YOLO26 => endToEnd N nnData parser indexed

/-- The number of anchors in a layer, one if the network has none. -/
def anchorsAt (strideIdx : ℕ) : ℕ :=
  match parser.decodingFamily with
  | .v3AB | .v5AB => (parser.anchorsV2.getD strideIdx []).length
  | .R1AF | .TLBR | .YOLO26 => 1

/-- What the family has in its cells. -/
def cellAt (layer : Layer K) (place : Place) : Cell K :=
  match parser.decodingFamily with
  | .R1AF => cellR1AF layer place
  | .v3AB => cellV3AB sigmoid exp parser layer place
  | .v5AB => cellV5AB parser layer place
  | .TLBR => cellTLBR parser layer place
  | .YOLO26 => cellEndToEnd layer place

/-- All cells of one layer. -/
def layerCells (layer : ℕ × Layer K) : List (Place × Cell K) :=
  (layer.2.places layer.1 (anchorsAt parser layer.1)).map fun place =>
    (place, cellAt sigmoid exp parser layer.2 place)

/-- All cells. -/
def cells (layers : List (ℕ × Layer K)) : List (Place × Cell K) :=
  layers.flatMap (layerCells sigmoid exp parser)

/-- The decoder makes a candidate of each cell that should have one, and of no other. -/
def KeepsConfident : Prop :=
  ∃ layers candidates origin, acceptedLayers N nnData parser = .ok layers ∧
    decodeYolo N sigmoid exp nnData parser = .ok candidates ∧
    ((cells sigmoid exp parser layers).map Prod.fst).Nodup ∧
    Harvest (Fits nnData parser) (Due nnData parser) (cells sigmoid exp parser layers) candidates
      origin

/-- A cell that is decoded as it should be. -/
def UnmistakenAt (item : Place × Cell K) : Prop :=
  match parser.decodingFamily with
  | .R1AF | .v5AB | .TLBR => True
  | .v3AB => parser.confidenceThreshold ≤ item.2.objectness →
      parser.confidenceThreshold ≤ item.2.confidence 0 → HasArea nnData item →
      0 ≤ item.2.score 0 ∨ ∃ c < parser.classes, 0 < item.2.score c
  | .YOLO26 => parser.confidenceThreshold ≤ item.2.objectness → HasArea nnData item →
      (item.1.rowIndex = 0 ↔ ∃ c < parser.classes, parser.confidenceThreshold ≤ item.2.score c)

/-- The checks pass, and every cell is decoded as it should be. -/
def Unmistaken : Prop :=
  ∃ layers, acceptedLayers N nnData parser = .ok layers ∧
    ∀ item ∈ cells sigmoid exp parser layers, UnmistakenAt nnData parser item

end AllCells

end Spec

/-! ### The frames -/

section Frames

variable {c : Prop} [Decidable c] {what : String} {scan : ℕ → Layer K → List β} {out : List β}

theorem check_eq_ok_iff {u : Unit} : check c what = .ok u ↔ c := by
  rw [check]
  split_ifs with hc
  · exact iff_of_true rfl hc
  · exact iff_of_false nofun hc

/-- What is made of all layers. -/
def scanAll (scan : ℕ → Layer K → List β) (layers : List (ℕ × Layer K)) : List β :=
  layers.flatMap fun layer => scan layer.1 layer.2

theorem forLayer_eq {openAt : ℕ → String → Except Failure (Option (Layer K))} :
    forLayer openAt scan = fun name => (forLayer openAt indexed name).map (scanAll scan) := by
  funext ⟨layerName, strideIdx⟩
  rw [forLayer, forLayer]
  rcases openAt strideIdx layerName with e | _ | layer
  · rfl
  · rfl
  · exact congrArg Except.ok (List.append_nil _).symm

theorem forLayers_eq {layerNames : List String}
    {openAt : ℕ → String → Except Failure (Option (Layer K))} :
    forLayers layerNames openAt scan =
      (forLayers layerNames openAt indexed).map (scanAll scan) := by
  rw [forLayers, forLayer_eq, Loop.mapM_map, forLayers]
  rcases layerNames.zipIdx.mapM _ with e | found
  · rfl
  · refine congrArg Except.ok ?_
    rw [scanAll, List.flatten_eq_flatMap (L := found), List.flatMap_assoc, ← List.flatMap_def]
    rfl

variable [Zero K] {N : Numbers T K} {nnData : NNOutput K} {parser : DetectionParserOptions K}

theorem anchorFree_eq_ok_iff {what' : String} : anchorFree N nnData parser what scan = .ok out ↔
    ∃ layers, anchorFree N nnData parser what' indexed = .ok layers ∧
      scanAll scan layers = out := by
  rw [anchorFree, anchorFree, forLayers_eq]
  simp only [Loop.bind_eq_ok, check_eq_ok_iff, Loop.map_eq_ok]
  tauto

theorem anchorBased_eq_ok_iff : anchorBased N nnData parser scan = .ok out ↔
    ∃ layers, anchorBased N nnData parser indexed = .ok layers ∧ scanAll scan layers = out := by
  rw [anchorBased, anchorBased, forLayers_eq]
  simp only [Loop.bind_eq_ok, check_eq_ok_iff, Loop.map_eq_ok]
  tauto

theorem buildLayer_height {layerName : String} {tensorInfo : TensorInfo K} {layer : Layer K}
    (h : buildLayer N nnData layerName tensorInfo = .ok layer) :
    ∃ height, tensorInfo.getHeight = .ok height ∧ layer.height = height.toNat := by
  obtain ⟨height, hheight, h⟩ := Loop.bind_eq_ok.1 h
  obtain ⟨_, -, h⟩ := Loop.bind_eq_ok.1 h
  obtain ⟨_, -, h⟩ := Loop.bind_eq_ok.1 h
  obtain ⟨_, -, h⟩ := Loop.bind_eq_ok.1 h
  cases h
  exact ⟨height, Loop.mapError_eq_ok.1 hheight, rfl⟩

/-- A layer that `decodeEndToEnd` decodes has a first row. -/
theorem height_pos {layer : Layer K} (h : openEndToEnd N nnData parser = .ok (some layer)) :
    0 < layer.height := by
  obtain ⟨_, -, h⟩ := Loop.bind_eq_ok.1 h
  obtain ⟨_, -, h⟩ := Loop.bind_eq_ok.1 h
  obtain ⟨tensorInfo, -, h⟩ := Loop.bind_eq_ok.1 h
  dsimp only at h
  split at h
  case h_1 => cases h
  case h_2 valid _ =>
    obtain ⟨channels, -, h⟩ := Loop.bind_eq_ok.1 h
    obtain ⟨height, hheight, h⟩ := Loop.bind_eq_ok.1 h
    obtain ⟨width, -, h⟩ := Loop.bind_eq_ok.1 h
    obtain ⟨_, -, h⟩ := Loop.bind_eq_ok.1 h
    split at h
    case isTrue => cases h
    case isFalse hpos =>
      obtain ⟨opened, hbuild, h⟩ := Loop.bind_eq_ok.1 h
      cases h
      obtain ⟨_, hsame, heq⟩ := buildLayer_height hbuild
      rw [Loop.mapError_eq_ok.1 hheight] at hsame
      cases hsame
      rw [heq]
      exact Int.pos_iff_toNat_pos.1 (not_le.1 (not_or.1 hpos).1)

theorem endToEnd_eq_ok_iff {scan' : ℕ → Layer K → List β}
    (hscan : ∀ layer, 0 < layer.height → scan 0 layer = scan' 0 layer) :
    endToEnd N nnData parser scan = .ok out ↔
      ∃ layers, endToEnd N nnData parser indexed = .ok layers ∧ scanAll scan' layers = out := by
  rw [endToEnd, endToEnd]
  cases hopen : openEndToEnd N nnData parser with
  | error e =>
    exact ⟨nofun, nofun⟩
  | ok opened =>
    cases opened with
    | none =>
      constructor
      · rintro ⟨⟩
        exact ⟨[], rfl, rfl⟩
      · rintro ⟨_, ⟨⟩, rfl⟩
        rfl
    | some layer =>
      have hall : scanAll scan' (indexed 0 layer) = scan 0 layer :=
        (List.append_nil _).trans (hscan layer (height_pos hopen)).symm
      constructor
      · rintro ⟨⟩
        exact ⟨_, rfl, hall⟩
      · rintro ⟨_, ⟨⟩, rfl⟩
        rw [hall]
        rfl

end Frames

/-! ### One cell -/

section OneCell

section Classes

variable [LinearOrder K]

theorem Cell.Best.of_first {cell : Cell K} {n c : ℕ} (h : FirstMaximum cell.score 0 (0 + n) c) :
    cell.Best n c :=
  ⟨(Nat.zero_add n).symm ▸ h.lt_hi, fun k hk => h.le k (Nat.zero_le k) ((Nat.zero_add n).symm ▸ hk)⟩

theorem Cell.Best.score_eq {cell : Cell K} {n c c' : ℕ} (h : cell.Best n c) (h' : cell.Best n c') :
    cell.score c = cell.score c' :=
  le_antisymm (h'.le c h.lt) (h.le c' h'.lt)

theorem exists_first {n : ℕ} (hclasses : 0 < n) (score : ℕ → K) :
    ∃ c, FirstMaximum score 0 (0 + n) c :=
  FirstMaximum.exists_of_lt score (by rwa [Nat.zero_add])

end Classes

variable [Field K] [LinearOrder K] {nnData : NNOutput K} {parser : DetectionParserOptions K}
  {item : Place × Cell K} {b : DetectionCandidate K}

theorem bestClass_eq {n c : ℕ} {score : ℕ → K} (h : FirstMaximum score 0 (0 + n) c) :
    bestClass n score = if 0 < score c then (score c, c) else (0, 0) :=
  have hlt (a b : K) (_ : True) (_ : True) : decide (a < b) = true ↔ id a < id b := decide_eq_true_iff
  FirstMaximum.foldl_pass hlt trivial (fun _ _ _ => trivial) h

theorem emplace_eq_some_iff {conf : K} {bestC : ℕ} :
    emplace nnData item.1 item.2 conf bestC = some b ↔
      HasArea nnData item ∧ b = clampedCandidate nnData item.1 item.2 conf bestC := by
  rw [emplace]
  split_ifs with hempty
  · refine iff_of_false nofun fun ⟨harea, _⟩ => ?_
    rcases hempty with hx | hy
    · exact absurd harea.width (not_lt.2 hx)
    · exact absurd harea.height (not_lt.2 hy)
  · obtain ⟨hx, hy⟩ := not_or.1 hempty
    rw [Option.some.injEq, eq_comm]
    exact ⟨fun h => ⟨⟨not_le.1 hx, not_le.1 hy⟩, h⟩, fun h => h.2⟩

theorem decodeCell_eq_some_iff : decodeCell nnData parser item.1 item.2 = some b ↔
    parser.confidenceThreshold ≤ item.2.objectness ∧
      parser.confidenceThreshold ≤ item.2.confidence (bestClass parser.classes item.2.score).1 ∧
      HasArea nnData item ∧ b = clampedCandidate nnData item.1 item.2
        (item.2.confidence (bestClass parser.classes item.2.score).1)
        (bestClass parser.classes item.2.score).2 := by
  rw [decodeCell]
  split_ifs with hobj
  · exact iff_of_false nofun fun h => absurd h.1 (not_le.2 hobj)
  · dsimp only
    split_ifs with hconf
    · exact iff_of_false nofun fun h => absurd h.2.1 (not_le.2 hconf)
    · rw [emplace_eq_some_iff]
      exact ⟨fun h => ⟨not_lt.1 hobj, not_lt.1 hconf, h⟩, fun h => h.2.2⟩

theorem decodeCellEndToEnd_eq_some_iff :
    decodeCellEndToEnd nnData parser item.1 item.2 = some b ↔
      parser.confidenceThreshold ≤ item.2.objectness ∧ HasArea nnData item ∧
        b = clampedCandidate nnData item.1 item.2 (bestClass parser.classes item.2.score).1
          (bestClass parser.classes item.2.score).2 := by
  rw [decodeCellEndToEnd]
  split_ifs with hobj
  · exact iff_of_false nofun fun h => absurd h.1 (not_le.2 hobj)
  · dsimp only
    rw [emplace_eq_some_iff]
    exact ⟨fun h => ⟨not_lt.1 hobj, h⟩, fun h => h.2⟩

theorem Fits.due (h : Fits nnData parser item b) : Due nnData parser item where
  objectness := h.objectness
  confident := ⟨_, h.best, h.score_eq ▸ h.confident⟩
  area := h.area

/-- A class with the greatest score, a positive one, is found. -/
theorem fits_of_pos {c : ℕ} (hfirst : FirstMaximum item.2.score 0 (0 + parser.classes) c)
    (hpos : 0 < item.2.score c) (hb : decodeCell nnData parser item.1 item.2 = some b) :
    Fits nnData parser item b := by
  obtain ⟨hobj, hconf, harea, rfl⟩ := decodeCell_eq_some_iff.1 hb
  rw [bestClass_eq hfirst, if_pos hpos] at hconf ⊢
  exact ⟨hobj, .of_first hfirst, rfl, hconf, harea, rfl⟩

/-- **A decoder is right about a cell where a score below zero means no confidence.** -/
theorem right_of_floor (hclasses : 0 < parser.classes)
    (hfloor : parser.confidenceThreshold ≤ item.2.objectness → ∀ s ≤ 0,
      item.2.confidence s < parser.confidenceThreshold) :
    Harvest.Right (Fits nnData parser) (Due nnData parser) item
      (decodeCell nnData parser item.1 item.2) := by
  obtain ⟨c, hfirst⟩ := exists_first hclasses item.2.score
  refine ⟨fun b hb => ?_, fun hdue => ?_⟩
  · by_cases hpos : 0 < item.2.score c
    · exact fits_of_pos hfirst hpos hb
    · obtain ⟨hobj, hconf, -⟩ := decodeCell_eq_some_iff.1 hb
      rw [bestClass_eq hfirst, if_neg hpos] at hconf
      exact absurd hconf (not_le.2 (hfloor hobj 0 le_rfl))
  · obtain ⟨c', hbest, hconf⟩ := hdue.confident
    rw [hbest.score_eq (.of_first hfirst)] at hconf
    have hpos : 0 < item.2.score c :=
      not_le.1 fun hle => absurd hconf (not_le.2 (hfloor hdue.objectness _ hle))
    have hconf' : parser.confidenceThreshold ≤
        item.2.confidence (bestClass parser.classes item.2.score).1 := by
      rwa [bestClass_eq hfirst, if_pos hpos]
    rw [decodeCell_eq_some_iff.2 ⟨hdue.objectness, hconf', hdue.area, rfl⟩]
    rfl

section Monotone

variable (hmono : parser.confidenceThreshold ≤ item.2.objectness → StrictMono item.2.confidence)
include hmono

theorem isSome_of_due (hdue : Due nnData parser item) :
    (decodeCell nnData parser item.1 item.2).isSome := by
  obtain ⟨c, hbest, hconf⟩ := hdue.confident
  obtain ⟨c', hfirst⟩ := exists_first (Nat.zero_lt_of_lt hbest.lt) item.2.score
  have hle : item.2.score c ≤ (bestClass parser.classes item.2.score).1 := by
    rw [hbest.score_eq (.of_first hfirst), bestClass_eq hfirst]
    split_ifs with hpos
    · exact le_rfl
    · exact not_lt.1 hpos
  have hconf' := hconf.trans ((hmono hdue.objectness).monotone hle)
  rw [decodeCell_eq_some_iff.2 ⟨hdue.objectness, hconf', hdue.area, rfl⟩]
  rfl

/-- **A decoder that compares logits is right about a cell** unless all logits are negative, or the
first one is and none is positive. -/
theorem right_iff_of_strictMono (hclasses : 0 < parser.classes) :
    Harvest.Right (Fits nnData parser) (Due nnData parser) item
        (decodeCell nnData parser item.1 item.2) ↔
      (parser.confidenceThreshold ≤ item.2.objectness →
        parser.confidenceThreshold ≤ item.2.confidence 0 → HasArea nnData item →
        0 ≤ item.2.score 0 ∨ ∃ c < parser.classes, 0 < item.2.score c) := by
  obtain ⟨c, hfirst⟩ := exists_first hclasses item.2.score
  have hbest : item.2.Best parser.classes c := .of_first hfirst
  constructor
  · intro hright hobj hconf harea
    by_cases hpos : 0 < item.2.score c
    · exact .inr ⟨c, hbest.lt, hpos⟩
    · have hzero : bestClass parser.classes item.2.score = (0, 0) := by
        rw [bestClass_eq hfirst, if_neg hpos]
      have hfits := hright.fits _ (decodeCell_eq_some_iff.2
        ⟨hobj, by rwa [hzero], harea, rfl⟩)
      -- The confidence of the candidate is that of the score zero, and the label is the first one.
      have hscore := hfits.score_eq
      rw [hzero] at hscore
      exact .inl ((hmono hobj).injective hscore).le
  · intro hcond
    refine ⟨fun b hb => ?_, isSome_of_due hmono⟩
    by_cases hpos : 0 < item.2.score c
    · exact fits_of_pos hfirst hpos hb
    · obtain ⟨hobj, hconf, harea, rfl⟩ := decodeCell_eq_some_iff.1 hb
      have hzero : bestClass parser.classes item.2.score = (0, 0) := by
        rw [bestClass_eq hfirst, if_neg hpos]
      rw [hzero] at hconf ⊢
      have hnone : ∀ k < parser.classes, item.2.score k ≤ 0 := fun k hk =>
        (hbest.le k hk).trans (not_lt.1 hpos)
      have hfirst0 : item.2.score 0 = 0 := by
        rcases hcond hobj hconf harea with h | ⟨k, hk, h⟩
        · exact le_antisymm (hnone 0 hclasses) h
        · exact absurd h (not_lt.2 (hnone k hk))
      refine ⟨hobj, ⟨hclasses, fun k hk => ?_⟩, ?_, hconf, harea, rfl⟩
      · exact (hnone k hk).trans hfirst0.ge
      · exact congrArg item.2.confidence hfirst0.symm

end Monotone

/-- **`decodeEndToEnd` is right about a cell** of the first row if a class is confident. -/
theorem right_endToEnd_iff (hclasses : 0 < parser.classes) (hthr : 0 < parser.confidenceThreshold)
    (hconfidence : ∀ s, item.2.confidence s = s) :
    Harvest.Right (Fits nnData parser) (Due nnData parser) item
        (decodeCellEndToEnd nnData parser item.1 item.2) ↔
      (parser.confidenceThreshold ≤ item.2.objectness → HasArea nnData item →
        ∃ c < parser.classes, parser.confidenceThreshold ≤ item.2.score c) := by
  constructor
  · intro hright hobj harea
    have hfits := hright.fits _ (decodeCellEndToEnd_eq_some_iff.2 ⟨hobj, harea, rfl⟩)
    obtain ⟨c, hbest, hconf⟩ := hfits.due.confident
    exact ⟨c, hbest.lt, by rwa [hconfidence] at hconf⟩
  · intro hcond
    refine ⟨fun b hb => ?_, fun hdue => ?_⟩
    · obtain ⟨hobj, harea, rfl⟩ := decodeCellEndToEnd_eq_some_iff.1 hb
      obtain ⟨k, hk, hconf⟩ := hcond hobj harea
      obtain ⟨c, hfirst⟩ := exists_first hclasses item.2.score
      have hbest : item.2.Best parser.classes c := .of_first hfirst
      have hconf' := hconf.trans (hbest.le k hk)
      rw [bestClass_eq hfirst, if_pos (hthr.trans_le hconf')]
      exact ⟨hobj, hbest, (hconfidence _).symm, hconf', harea, rfl⟩
    · rw [decodeCellEndToEnd_eq_some_iff.2 ⟨hdue.objectness, hdue.area, rfl⟩]
      rfl

end OneCell

/-! ### All cells -/

theorem places_nodup (layer : Layer K) (strideIdx numAnchors : ℕ) :
    (layer.places strideIdx numAnchors).Nodup := by
  rw [Layer.places, List.nodup_flatMap]
  refine ⟨fun row _ => List.nodup_flatMap.2 ⟨fun col _ => ?_, ?_⟩, ?_⟩
  · exact List.nodup_range.map fun a a' h => congrArg Place.anchorIndex h
  · refine List.nodup_range.imp fun hne place h h' => hne ?_
    obtain ⟨_, -, rfl⟩ := List.mem_map.1 h
    obtain ⟨_, -, heq⟩ := List.mem_map.1 h'
    exact (congrArg Place.columnIndex heq).symm
  · refine List.nodup_range.imp fun hne place h h' => hne ?_
    obtain ⟨_, -, h⟩ := List.mem_flatMap.1 h
    obtain ⟨_, -, h'⟩ := List.mem_flatMap.1 h'
    obtain ⟨_, -, rfl⟩ := List.mem_map.1 h
    obtain ⟨_, -, heq⟩ := List.mem_map.1 h'
    exact (congrArg Place.rowIndex heq).symm

theorem headIndex_of_mem_places {layer : Layer K} {strideIdx numAnchors : ℕ} {place : Place}
    (h : place ∈ layer.places strideIdx numAnchors) : place.headIndex = strideIdx := by
  obtain ⟨_, -, h⟩ := List.mem_flatMap.1 h
  obtain ⟨_, -, h⟩ := List.mem_flatMap.1 h
  obtain ⟨_, -, rfl⟩ := List.mem_map.1 h
  rfl

theorem filterMap_places {layer : Layer K} (hpos : 0 < layer.height) {strideIdx : ℕ}
    {g : Place → Option β} (hg : ∀ place : Place, place.rowIndex ≠ 0 → g place = none) :
    (layer.places strideIdx 1).filterMap g =
      (List.range layer.width).filterMap fun col => g ⟨strideIdx, 0, col, 0⟩ := by
  obtain ⟨n, hn⟩ := Nat.exists_eq_add_of_lt hpos
  rw [Nat.zero_add] at hn
  have hrest : ((List.map Nat.succ (List.range n)).flatMap fun row =>
      (List.range layer.width).flatMap fun col =>
        (List.range 1).map fun a => (⟨strideIdx, row, col, a⟩ : Place)).filterMap g = [] := by
    refine List.filterMap_eq_nil_iff.2 fun place hplace => hg place ?_
    obtain ⟨row, hrow, hplace⟩ := List.mem_flatMap.1 hplace
    obtain ⟨k, -, rfl⟩ := List.mem_map.1 hrow
    obtain ⟨_, -, hplace⟩ := List.mem_flatMap.1 hplace
    obtain ⟨_, -, rfl⟩ := List.mem_map.1 hplace
    exact Nat.succ_ne_zero k
  have hfirst : ((List.range layer.width).flatMap fun col =>
      (List.range 1).map fun a => (⟨strideIdx, 0, col, a⟩ : Place)) =
        (List.range layer.width).map fun col => ⟨strideIdx, 0, col, 0⟩ :=
    List.flatMap_pure_eq_map _ _
  rw [Layer.places, hn, List.range_succ_eq_map (n := n), List.flatMap_cons, List.filterMap_append,
    hrest, List.append_nil, hfirst, List.filterMap_map]
  rfl

section Family

variable {layers : List (ℕ × Layer K)}

theorem sublist_of_forLayer {openAt : ℕ → String → Except Failure (Option (Layer K))}
    {names : List (String × ℕ)} {found : List (List (ℕ × Layer K))}
    (h : List.Forall₂ (fun name layers => forLayer openAt indexed name = .ok layers) names found) :
    (found.flatten.map Prod.fst).Sublist (names.map Prod.snd) := by
  induction h with
  | nil => exact .slnil
  | cons hname _ ih =>
    obtain ⟨opened, -, hname⟩ := Loop.bind_eq_ok.1 hname
    cases opened with
    | none =>
      cases hname
      exact ih.cons _
    | some layer =>
      cases hname
      exact ih.cons_cons _

theorem forLayers_nodup {layerNames : List String}
    {openAt : ℕ → String → Except Failure (Option (Layer K))}
    (h : forLayers layerNames openAt indexed = .ok layers) : (layers.map Prod.fst).Nodup := by
  obtain ⟨found, hfound, h⟩ := Loop.bind_eq_ok.1 h
  cases h
  have hsub := sublist_of_forLayer (Loop.mapM_eq_ok_iff.1 hfound)
  rw [List.zipIdx_map_snd] at hsub
  exact hsub.nodup List.nodup_range'

variable [Field K] {sigmoid exp : K → K} {parser : DetectionParserOptions K}

theorem cells_nodup (h : (layers.map Prod.fst).Nodup) :
    ((cells sigmoid exp parser layers).map Prod.fst).Nodup := by
  have hplaces : (cells sigmoid exp parser layers).map Prod.fst =
      layers.flatMap fun layer => layer.2.places layer.1 (anchorsAt parser layer.1) := by
    rw [cells, List.map_flatMap]
    refine congrArg (List.flatMap · layers) ?_
    funext layer
    rw [layerCells, List.map_map]
    exact List.map_id _
  rw [hplaces, List.nodup_flatMap]
  refine ⟨fun layer _ => places_nodup _ _ _, ?_⟩
  refine (List.pairwise_map.1 h).imp fun hne place h h' => hne ?_
  rw [← headIndex_of_mem_places h, headIndex_of_mem_places h']

theorem exists_of_mem_cells {item : Place × Cell K} (h : item ∈ cells sigmoid exp parser layers) :
    ∃ layer place, item = (place, cellAt sigmoid exp parser layer place) := by
  obtain ⟨layer, -, h⟩ := List.mem_flatMap.1 h
  obtain ⟨place, -, rfl⟩ := List.mem_map.1 h
  exact ⟨layer.2, place, rfl⟩

variable {N : Numbers T K} {nnData : NNOutput K}

theorem acceptedLayers_nodup (h : acceptedLayers N nnData parser = .ok layers) :
    (layers.map Prod.fst).Nodup := by
  have hfree : ∀ what, anchorFree N nnData parser what indexed = .ok layers →
      (layers.map Prod.fst).Nodup := by
    intro what h
    obtain ⟨_, -, h⟩ := Loop.bind_eq_ok.1 h
    obtain ⟨_, -, h⟩ := Loop.bind_eq_ok.1 h
    exact forLayers_nodup h
  have hbased : anchorBased N nnData parser indexed = .ok layers → (layers.map Prod.fst).Nodup := by
    intro h
    obtain ⟨_, -, h⟩ := Loop.bind_eq_ok.1 h
    obtain ⟨_, -, h⟩ := Loop.bind_eq_ok.1 h
    obtain ⟨_, -, h⟩ := Loop.bind_eq_ok.1 h
    exact forLayers_nodup h
  rw [acceptedLayers] at h
  cases hfamily : parser.decodingFamily with
  | R1AF | TLBR =>
    rw [hfamily] at h
    exact hfree _ h
  | v3AB | v5AB =>
    rw [hfamily] at h
    exact hbased h
  | YOLO26 =>
    rw [hfamily] at h
    obtain ⟨opened, -, h⟩ := Loop.bind_eq_ok.1 h
    cases opened with
    | none =>
      cases h
      exact List.nodup_nil
    | some layer =>
      cases h
      exact List.nodup_singleton 0

variable [LinearOrder K]

/-- What the decoder of the family makes of a cell. -/
def yields (nnData : NNOutput K) (parser : DetectionParserOptions K) (item : Place × Cell K) :
    Option (DetectionCandidate K) :=
  match parser.decodingFamily with
  | .R1AF | .v3AB | .v5AB | .TLBR => decodeCell nnData parser item.1 item.2
  | .YOLO26 =>
    if item.1.rowIndex = 0 then decodeCellEndToEnd nnData parser item.1 item.2 else none

/-- What it makes of the cells of a layer. -/
def scanCells (sigmoid exp : K → K) (nnData : NNOutput K) (parser : DetectionParserOptions K)
    (strideIdx : ℕ) (layer : Layer K) : List (DetectionCandidate K) :=
  (layer.places strideIdx (anchorsAt parser strideIdx)).filterMap fun place =>
    yields nnData parser (place, cellAt sigmoid exp parser layer place)

theorem scanAll_scanCells : scanAll (scanCells sigmoid exp nnData parser) layers =
    (cells sigmoid exp parser layers).filterMap (yields nnData parser) := by
  rw [cells, List.filterMap_flatMap, scanAll]
  refine congrArg (List.flatMap · layers) ?_
  funext layer
  rw [layerCells, List.filterMap_map]
  rfl

/-- **A decoder makes a candidate of each cell that yields one.** -/
theorem decodeYolo_eq_ok_iff {out : List (DetectionCandidate K)} :
    decodeYolo N sigmoid exp nnData parser = .ok out ↔
      ∃ layers, acceptedLayers N nnData parser = .ok layers ∧
        (cells sigmoid exp parser layers).filterMap (yields nnData parser) = out := by
  simp only [← scanAll_scanCells]
  cases hfamily : parser.decodingFamily with
  | R1AF =>
    have hscan : scanCells sigmoid exp nnData parser = fun strideIdx layer =>
        (layer.places strideIdx 1).filterMap fun place =>
          decodeCell nnData parser place (cellR1AF layer place) := by
      funext strideIdx layer
      simp only [scanCells, anchorsAt, yields, cellAt, hfamily]
    rw [decodeYolo, acceptedLayers, hfamily, hscan]
    exact anchorFree_eq_ok_iff
  | TLBR =>
    have hscan : scanCells sigmoid exp nnData parser = fun strideIdx layer =>
        (layer.places strideIdx 1).filterMap fun place =>
          decodeCell nnData parser place (cellTLBR parser layer place) := by
      funext strideIdx layer
      simp only [scanCells, anchorsAt, yields, cellAt, hfamily]
    rw [decodeYolo, acceptedLayers, hfamily, hscan]
    exact anchorFree_eq_ok_iff
  | v3AB =>
    have hscan : scanCells sigmoid exp nnData parser = fun strideIdx layer =>
        (layer.places strideIdx (parser.anchorsV2.getD strideIdx []).length).filterMap fun place =>
          decodeCell nnData parser place (cellV3AB sigmoid exp parser layer place) := by
      funext strideIdx layer
      simp only [scanCells, anchorsAt, yields, cellAt, hfamily]
    rw [decodeYolo, acceptedLayers, hfamily, hscan]
    exact anchorBased_eq_ok_iff
  | v5AB =>
    have hscan : scanCells sigmoid exp nnData parser = fun strideIdx layer =>
        (layer.places strideIdx (parser.anchorsV2.getD strideIdx []).length).filterMap fun place =>
          decodeCell nnData parser place (cellV5AB parser layer place) := by
      funext strideIdx layer
      simp only [scanCells, anchorsAt, yields, cellAt, hfamily]
    rw [decodeYolo, acceptedLayers, hfamily, hscan]
    exact anchorBased_eq_ok_iff
  | YOLO26 =>
    rw [decodeYolo, acceptedLayers, hfamily]
    refine endToEnd_eq_ok_iff fun layer hpos => ?_
    simp only [scanCells, anchorsAt, yields, cellAt, hfamily]
    rw [filterMap_places hpos fun place hrow => if_neg hrow]
    rfl

/-! ### The exact condition -/

section Exact

variable [IsStrictOrderedRing K] (hsigmoid : StrictMono sigmoid)
  (hclasses : 0 < parser.classes) (hthr : 0 < parser.confidenceThreshold)

/-- A probability that is not positive means no confidence. -/
theorem mul_lt_of_nonpos {thr obj s : K} (hthr : 0 < thr) (hobj : thr ≤ obj) (hs : s ≤ 0) :
    s * obj < thr :=
  (mul_nonpos_of_nonpos_of_nonneg hs (hthr.le.trans hobj)).trans_lt hthr

include hsigmoid hclasses hthr

/-- **A decoder is right about a cell exactly if the cell is unmistaken.** -/
theorem right_yields_iff {layer : Layer K} {place : Place} :
    Harvest.Right (Fits nnData parser) (Due nnData parser)
        (place, cellAt sigmoid exp parser layer place)
        (yields nnData parser (place, cellAt sigmoid exp parser layer place)) ↔
      UnmistakenAt nnData parser (place, cellAt sigmoid exp parser layer place) := by
  cases hfamily : parser.decodingFamily with
  | R1AF =>
    simp only [yields, cellAt, UnmistakenAt, hfamily, iff_true]
    exact right_of_floor hclasses fun hobj s hs => mul_lt_of_nonpos hthr hobj hs
  | TLBR =>
    simp only [yields, cellAt, UnmistakenAt, hfamily, iff_true]
    exact right_of_floor hclasses fun _ s hs => hs.trans_lt hthr
  | v5AB =>
    simp only [yields, cellAt, UnmistakenAt, hfamily, iff_true]
    refine right_of_floor hclasses fun hobj s hs => ?_
    have hlt := mul_lt_of_nonpos hthr hobj hs
    rwa [mul_comm] at hlt
  | v3AB =>
    simp only [yields, cellAt, UnmistakenAt, hfamily]
    exact right_iff_of_strictMono (fun hobj => hsigmoid.const_mul (hthr.trans_le hobj)) hclasses
  | YOLO26 =>
    simp only [yields, cellAt, UnmistakenAt, hfamily]
    by_cases hrow : place.rowIndex = 0
    · rw [if_pos hrow, right_endToEnd_iff hclasses hthr fun _ => rfl]
      simp only [hrow, true_iff]
    · rw [if_neg hrow, Harvest.right_none_iff]
      simp only [hrow, false_iff]
      constructor
      · rintro hnone hobj harea ⟨c, hc, hconf⟩
        obtain ⟨c', hfirst⟩ := exists_first hclasses (cellEndToEnd layer place).score
        have hbest : (cellEndToEnd layer place).Best parser.classes c' := .of_first hfirst
        exact hnone ⟨hobj, ⟨c', hbest, hconf.trans (hbest.le c hc)⟩, harea⟩
      · rintro hnone ⟨hobj, ⟨c, hbest, hconf⟩, harea⟩
        exact hnone hobj harea ⟨c, hbest.lt, hconf⟩

/-- A cell to which a candidate could belong yields one. -/
theorem isSome_yields {item : Place × Cell K} (hitem : item ∈ cells sigmoid exp parser layers)
    {b : DetectionCandidate K}
    (hb : b ∈ (cells sigmoid exp parser layers).filterMap (yields nnData parser))
    (hfits : Fits nnData parser item b) : (yields nnData parser item).isSome := by
  obtain ⟨layer, place, rfl⟩ := exists_of_mem_cells hitem
  have hright : Harvest.Right (Fits nnData parser) (Due nnData parser)
      (place, cellAt sigmoid exp parser layer place) _ ↔ _ := right_yields_iff hsigmoid hclasses hthr
  cases hfamily : parser.decodingFamily with
  | R1AF | TLBR | v5AB =>
    refine (hright.2 ?_).complete hfits.due
    simp only [UnmistakenAt, hfamily]
  | v3AB =>
    have hdue := hfits.due
    simp only [yields, cellAt, hfamily] at hdue ⊢
    exact isSome_of_due (fun hobj => hsigmoid.const_mul (hthr.trans_le hobj)) hdue
  | YOLO26 =>
    obtain ⟨item', -, hyield⟩ := List.mem_filterMap.1 hb
    have hrow : place.rowIndex = 0 := by
      have hplace : b.rowIndex = place.rowIndex := by rw [hfits.eq]; rfl
      simp only [yields, hfamily] at hyield
      split_ifs at hyield with hfirst
      obtain ⟨-, -, rfl⟩ := decodeCellEndToEnd_eq_some_iff.1 hyield
      exact hplace.symm.trans hfirst
    simp only [yields, hfamily]
    rw [if_pos hrow, decodeCellEndToEnd_eq_some_iff.2 ⟨hfits.objectness, hfits.area, rfl⟩]
    rfl

end Exact

/-- **The decoders keep the confident cells,** with the best class, exactly if their checks pass and
no cell misleads `decodeV3AB` or `decodeEndToEnd`. -/
theorem keepsConfident_iff [IsStrictOrderedRing K] (hsigmoid : StrictMono sigmoid)
    (hclasses : 0 < parser.classes) (hthr : 0 < parser.confidenceThreshold) :
    KeepsConfident N sigmoid exp nnData parser ↔ Unmistaken N sigmoid exp nnData parser := by
  constructor
  · rintro ⟨layers, candidates, origin, hlayers, hdecode, -, hharvest⟩
    obtain ⟨layers', hlayers', rfl⟩ := decodeYolo_eq_ok_iff.1 hdecode
    rw [hlayers] at hlayers'
    cases hlayers'
    refine ⟨layers, hlayers, fun item hitem => ?_⟩
    have hright := (Harvest.filterMap_iff fun a ha b => isSome_yields hsigmoid hclasses hthr ha).1
      ⟨origin, hharvest⟩ item hitem
    obtain ⟨layer, place, rfl⟩ := exists_of_mem_cells hitem
    exact (right_yields_iff hsigmoid hclasses hthr).1 hright
  · rintro ⟨layers, hlayers, hcells⟩
    refine ⟨layers, _, _, hlayers, decodeYolo_eq_ok_iff.2 ⟨layers, hlayers, rfl⟩,
      cells_nodup (acceptedLayers_nodup hlayers), .of_right fun item hitem => ?_⟩
    have hunmistaken := hcells item hitem
    obtain ⟨layer, place, rfl⟩ := exists_of_mem_cells hitem
    exact (right_yields_iff hsigmoid hclasses hthr).2 hunmistaken

end Family

/-! ### Single cells -/

namespace SingleCell

/-- Fractions as numbers of single precision. -/
def fractions : Numbers ℤ ℚ where
  toInt8 := Int8.ofInt
  toUInt8 := UInt8.ofInt
  toUInt16 := UInt16.ofInt
  toInt32 := Int32.ofInt
  fp32_to_fp16 := UInt16.ofInt
  toFloat := UInt32.ofInt
  toDouble := UInt64.ofInt
  ofInt := Int.cast
  fp16_ieee_to_fp32_value n := n.toNat
  ofFloat n := n.toNat
  ofDouble n := n.toNat
  zero := 0
  one := 1
  sub x y := x - y
  mul x y := x * y

/-- Seven channels of one cell: a box, the objectness and two classes. -/
def output (qpScale : ℚ) (bytes : List UInt8) : NNOutput ℚ where
  bytes
  tensors := [{
    order := .HWC
    dataType := .I8
    numDimensions := 3
    dims := [1, 1, 7]
    strides := [7, 7, 1]
    name := "output_yolo"
    offset := 0
    qpScale
    qpZp := 0 }]
  inputWidth := 8
  inputHeight := 8

/-- A network of a family with two classes and one layer. -/
def options (decodingFamily : YoloDecodingFamily) : DetectionParserOptions ℚ where
  confidenceThreshold := 2 / 5
  decodingFamily
  classes := 2
  coordinates := 4
  strides := [8]
  anchorsV2 := [[[2, 2]]]

/-- An increasing function with values between zero and one. -/
def logistic (x : ℚ) : ℚ :=
  if x < 0 then 1 / (2 * (1 - x)) else 1 - 1 / (2 * (1 + x))

theorem logistic_strictMono : StrictMono logistic := by
  intro x y hxy
  rw [logistic, logistic]
  split_ifs with hx hy
  · exact one_div_lt_one_div_of_lt (by linarith) (by linarith)
  · have hlow : 1 / (2 * (1 - x)) < 1 / 2 := one_div_lt_one_div_of_lt two_pos (by linarith)
    have hhigh : 1 / (2 * (1 + y)) ≤ 1 / 2 := one_div_le_one_div_of_le two_pos (by linarith)
    linarith
  · linarith
  · have hlt : 1 / (2 * (1 + y)) < 1 / (2 * (1 + x)) :=
      one_div_lt_one_div_of_lt (by linarith) (by linarith)
    linarith

end SingleCell

open SingleCell

/-- The second class has a positive logit. -/
theorem keepsConfident_positiveLogit :
    KeepsConfident fractions logistic logistic (output 1 [0, 0, 0, 0, 3, 255, 1])
      (options .v3AB) := by
  refine (keepsConfident_iff logistic_strictMono (by decide) (by decide +kernel)).2 ⟨_, rfl, ?_⟩
  intro item hitem _ _ _
  obtain ⟨layer, hlayer, hitem⟩ := List.mem_flatMap.1 hitem
  cases List.mem_singleton.1 hlayer
  cases List.mem_singleton.1 hitem
  exact .inr ⟨1, by decide, by decide +kernel⟩

/-- The logits are -2 and -1, and the first class is chosen with the confidence of the logit 0.
Without further decoding a class of confidence 1/5 is enough if the objectness is 9/10. -/
theorem not_keepsConfident_singleCell :
    ¬KeepsConfident fractions logistic logistic (output 1 [0, 0, 0, 0, 3, 254, 255])
        (options .v3AB) ∧
      ¬KeepsConfident fractions logistic logistic (output (1 / 10) [0, 0, 40, 40, 9, 2, 1])
        (options .YOLO26) := by
  constructor
  · rintro ⟨layers, candidates, origin, hlayers, hdecode, -, hharvest⟩
    have hcandidate : decodeV3AB fractions logistic logistic (output 1 [0, 0, 0, 0, 3, 254, 255])
        (options .v3AB) = .ok [⟨7 / 2, 7 / 2, 9 / 2, 9 / 2, 7 / 16, 0, 0, 0, 0, none⟩] := by
      decide +kernel
    cases hcandidate.symm.trans hdecode
    cases hlayers
    obtain ⟨item, _, hfits, -, rfl⟩ := List.forall₂_cons_right_iff.1 hharvest.fits
    obtain ⟨layer, hlayer, hitem⟩ :=
      List.mem_flatMap.1 (hharvest.sublist.subset List.mem_cons_self)
    cases List.mem_singleton.1 hlayer
    cases List.mem_singleton.1 hitem
    exact absurd (hfits.best.le 1 (by decide)) (by decide +kernel)
  · rintro ⟨layers, candidates, origin, -, hdecode, -, hharvest⟩
    have hcandidate : decodeEndToEnd fractions (output (1 / 10) [0, 0, 40, 40, 9, 2, 1])
        (options .YOLO26) = .ok [⟨0, 0, 4, 4, 1 / 5, 0, 0, 0, 0, none⟩] := by
      decide +kernel
    cases hcandidate.symm.trans hdecode
    obtain ⟨item, _, hfits, -, rfl⟩ := List.forall₂_cons_right_iff.1 hharvest.fits
    exact absurd hfits.confident (by decide +kernel)

/-! ### From the network to the detections -/

section Detections

variable [Field K] [LinearOrder K] {nnData : NNOutput K} {parser : DetectionParserOptions K}

theorem Fits.proper {item : Place × Cell K} {b : DetectionCandidate K}
    (h : Fits nnData parser item b) : b.Proper := by
  rw [h.eq]
  exact ⟨h.area.width, h.area.height⟩

end Detections

end DepthaiCore.DetectionParserUtils
