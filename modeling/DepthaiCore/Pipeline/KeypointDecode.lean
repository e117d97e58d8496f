import DepthaiCore.Common.Geometry
import DepthaiCore.Pipeline.ConfidentCells

/-!
# The keypoints of a detection

A network with keypoints has a tensor for each head in which the cells of the head are in one row.
`keypointDecode` reads the keypoints of a detection at the place of its cell: the row times the
width of the head, plus the column.

The decoders correct the storage order of a tensor if the channels are not where its description
says. `keypointDecode` takes the width from the description as it was received.
-/

namespace DepthaiCore

/-! ### Lists of keypoints -/

/-- What `validateEdges` refuses. -/
def invalidEdge (n : ℕ) (e : ℕ × ℕ) : Bool :=
  decide (e.1 ≥ n) || decide (e.2 ≥ n) || e.1 == e.2

structure KeypointsList (K : Type) where
  keypoints : List (Keypoint K)
  edges : List (ℕ × ℕ)
  valid : edges.find? (invalidEdge keypoints.length) = none

/-- The constructor with `validateEdges`. -/
def KeypointsList.make {K : Type} (keypoints : List (Keypoint K)) (edges : List (ℕ × ℕ)) :
    Except Failure (KeypointsList K) :=
  match h : edges.find? (invalidEdge keypoints.length) with
  | none => .ok ⟨keypoints, edges, h⟩
  | some e =>
    if e.1 ≥ keypoints.length ∨ e.2 ≥ keypoints.length then
      .error (.invalidArgument "Edge index out of range.")
    else .error (.invalidArgument "Self-loop edges are not allowed.")

/-- What the keypoints need of `DetectionParserOptions` besides. -/
structure KeypointOptions (K : Type) extends DetectionParserOptions K where
  nKeypoints : Option ℤ := none
  keypointEdges : List (ℕ × ℕ) := []
  keypointLabelNames : List String := []

namespace DetectionParserUtils

open NN (NNData NNDataViewer FactorsBefore Numbers StorageOrder TensorInfo)

variable {T K α β ε : Type}

/-! ### The function -/

/-- How `keypointDecode` ends without a result. -/
inductive KeypointFault
  | failure (f : Failure)
  /-- A `std::length_error`, and a `std::out_of_range`. -/
  | lengthError
  | outOfRange
  /-- An `int` that overflows, or an element that does not exist. -/
  | undefined
  deriving DecidableEq, Repr

/-- A value that must fit into an `int`. -/
def int (x : ℤ) : Except KeypointFault ℤ :=
  if -2 ^ 31 ≤ x ∧ x < 2 ^ 31 then .ok x else .error .undefined

/-- A loop that collects something of each element and is left at the first that has nothing. -/
def gather (f : α → Except ε (Option β)) : List α → Except ε (Option (List β))
  | [] => .ok (some [])
  | a :: l => do
    match ← f a with
    | none => return none
    | some b =>
      match ← gather f l with
      | none => return none
      | some bs => return some (b :: bs)

/-- What is there when the loop over the candidates begins. -/
structure KeypointTensors (K : Type) where
  nKeypoints : ℤ
  featureMapWidths : List ℤ
  keypointValues : List (NNDataViewer K × FactorsBefore)

/-- `flattenedIndex`: where the keypoints of a candidate are read. -/
def flattenedIndex (featureMapWidths : List ℤ) (c : DetectionCandidate K) :
    Except KeypointFault ℤ :=
  match featureMapWidths[c.headIndex]? with
  | none => .error .undefined
  | some width => do
    let offset ← int (c.rowIndex * width)
    int (offset + c.columnIndex)

section Decode

variable (nnData : NNOutput K) (parser : KeypointOptions K)

/-- The width in the description of a layer. -/
def featureMapWidth (layerName : String) : Except KeypointFault (Option ℤ) :=
  match getTensorInfo nnData.toNNData layerName with
  | none => .ok none
  | some tensorInfo => (tensorInfo.getWidth.mapError (.failure <| .runtimeError ·)).map some

/-- The viewer of a layer with keypoints. Where there is none, the number of channels is asked for,
to report it. -/
def keypointTensor (nKeypoints : ℤ) (layerName : String) :
    Except KeypointFault (Option (NNDataViewer K × FactorsBefore)) :=
  match getTensorInfo nnData.toNNData layerName with
  | none => .error .undefined
  | some tensorInfo => do
    let channels ← int (nKeypoints * 3)
    match isTensorOrderValid tensorInfo (Int32.ofInt channels).toUInt32 with
    | none =>
      let _ ← tensorInfo.getChannels.mapError (.failure <| .runtimeError ·)
      return none
    | some tensorInfo =>
      let viewer : NNDataViewer K := ⟨tensorInfo, nnData.bytes⟩
      return viewer.build.map (viewer, ·)

/-- The part of `keypointDecode` before the loop over the candidates. -/
def keypointTensors : Except KeypointFault (Option (KeypointTensors K)) := do
  let nKeypoints ← (checkSome "Number of keypoints not set in properties.parser.nKeypoints."
    parser.nKeypoints).mapError .failure
  let yoloLayerNames := resolveLayerNames nnData.toNNData parser.outputNamesToUse "_yolo"
  match ← gather (featureMapWidth nnData) yoloLayerNames with
  | none => return none
  | some featureMapWidths =>
    let kptsLayerNames := resolveLayerNames nnData.toNNData [] "kpt_output"
    let strides := parser.strides.length
    let layers := kptsLayerNames.length
    (check (strides = layers)
      (s!"Number of strides does not match number of keypoints output layers.  " ++
        s!"Strides size: {strides}, keypoints output layers size: {layers}.")).mapError .failure
    match ← gather (keypointTensor nnData nKeypoints) kptsLayerNames with
    | none => return none
    | some keypointValues => return some { nKeypoints, featureMapWidths, keypointValues }

variable [Field K] [LinearOrder K] (N : Numbers T K) (exp : K → K)

/-- `std::clamp(x, 0.0f, 1.0f)`. -/
def unitClamp (x : K) : K :=
  max 0 (min x 1)

/-- The keypoint `k` at an index. -/
def readKeypoint (t : KeypointTensors K) (keypointMask : NNDataViewer K × FactorsBefore)
    (index : ℤ) (k : ℕ) : Keypoint K :=
  let base := 3 * k
  let get (c : ℕ) : K := ((keypointMask.1.get N keypointMask.2 c 0 index).map Prod.fst).getD 0
  let x := unitClamp (get (base + 0) / nnData.inputWidth)
  let y := unitClamp (get (base + 1) / nnData.inputHeight)
  let conf := 1 / (1 + exp (-get (base + 2)))
  { imageCoordinates := ⟨x, y, 0⟩
    confidence := conf
    labelName := if (parser.keypointLabelNames.length : ℤ) = t.nKeypoints then
      parser.keypointLabelNames.getD k "" else "" }

/-- The body of the loop over the candidates. -/
def keypointsOf (t : KeypointTensors K) (c : DetectionCandidate K) :
    Except KeypointFault (KeypointsList K) := do
  let index ← flattenedIndex t.featureMapWidths c
  if t.nKeypoints < 0 then .error .lengthError
  else match t.keypointValues[c.headIndex]? with
    | none => .error .outOfRange
    | some keypointMask =>
      let keypoints := (List.range t.nKeypoints.toNat).map
        (readKeypoint nnData parser N exp t keypointMask index)
      (KeypointsList.make keypoints parser.keypointEdges).mapError .failure

/-- **`keypointDecode`:** the keypoints of each detection, or `none` where it returns early. -/
def keypointDecode (detectionCandidates : List (DetectionCandidate K)) :
    Except KeypointFault (Option (List (KeypointsList K))) := do
  match ← keypointTensors nnData parser with
  | none => return none
  | some t => return some (← detectionCandidates.mapM (keypointsOf nnData parser N exp t))

end Decode

/-! ### What is read -/

theorem gather_eq_some {f : α → Except ε (Option β)} {l : List α} {bs : List β}
    (h : gather f l = .ok (some bs)) : List.Forall₂ (fun a b => f a = .ok (some b)) l bs := by
  induction l generalizing bs with
  | nil =>
    cases h
    exact .nil
  | cons a l ih =>
    obtain ⟨found, hfound, h⟩ := Loop.bind_eq_ok.1 h
    cases found with
    | none => cases h
    | some b =>
      obtain ⟨rest, hrest, h⟩ := Loop.bind_eq_ok.1 h
      cases rest with
      | none => cases h
      | some bs' =>
        cases h
        exact .cons hfound (ih hrest)

theorem getElem?_of_forall₂ {f : α → Except ε (Option β)} {l : List α} {bs : List β}
    (h : List.Forall₂ (fun a b => f a = .ok (some b)) l bs) (i : ℕ) :
    bs[i]? = l[i]?.bind fun a => (f a).toOption.join := by
  induction h generalizing i with
  | nil => rfl
  | cons hhead _ ih =>
    cases i with
    | zero =>
      rw [List.getElem?_cons_zero, List.getElem?_cons_zero, Option.bind_some, hhead]
      rfl
    | succ i => exact ih i

theorem int_eq_ok_iff {x y : ℤ} : int x = .ok y ↔ x = y ∧ -2 ^ 31 ≤ x ∧ x < 2 ^ 31 := by
  rw [int]
  split_ifs with hx
  · exact ⟨fun h => ⟨Except.ok.inj h, hx⟩, fun h => congrArg _ h.1⟩
  · exact iff_of_false nofun fun h => hx h.2

theorem make_eq_ok {keypoints : List (Keypoint K)} {edges : List (ℕ × ℕ)} {list : KeypointsList K}
    (h : KeypointsList.make keypoints edges = .ok list) :
    list.keypoints = keypoints ∧ list.edges = edges := by
  rw [KeypointsList.make] at h
  split at h
  · cases h
    exact ⟨rfl, rfl⟩
  · split_ifs at h

section Decode

variable [Field K] [LinearOrder K] {nnData : NNOutput K} {parser : KeypointOptions K}
  {N : Numbers T K} {exp : K → K} {t : KeypointTensors K}

/-- The keypoints are those at the index of the candidate. -/
structure ReadAt (nnData : NNOutput K) (parser : KeypointOptions K) (N : Numbers T K) (exp : K → K)
    (t : KeypointTensors K) (c : DetectionCandidate K) (list : KeypointsList K) : Prop where
  exists_read : ∃ index keypointMask, flattenedIndex t.featureMapWidths c = .ok index ∧
    t.keypointValues[c.headIndex]? = some keypointMask ∧
    list.keypoints = (List.range t.nKeypoints.toNat).map
      (readKeypoint nnData parser N exp t keypointMask index)
  edges : list.edges = parser.keypointEdges

theorem readAt_of_keypointsOf {c : DetectionCandidate K} {list : KeypointsList K}
    (h : keypointsOf nnData parser N exp t c = .ok list) :
    ReadAt nnData parser N exp t c list := by
  obtain ⟨index, hindex, h⟩ := Loop.bind_eq_ok.1 h
  split_ifs at h with hneg
  cases hmask : t.keypointValues[c.headIndex]? with
  | none =>
    rw [hmask] at h
    cases h
  | some keypointMask =>
    rw [hmask] at h
    dsimp only at h
    cases hmake : KeypointsList.make ((List.range t.nKeypoints.toNat).map
        (readKeypoint nnData parser N exp t keypointMask index)) parser.keypointEdges with
    | error e =>
      rw [hmake] at h
      cases h
    | ok made =>
      rw [hmake] at h
      cases h
      obtain ⟨hkeypoints, hedges⟩ := make_eq_ok hmake
      exact ⟨⟨index, keypointMask, hindex, hmask, hkeypoints⟩, hedges⟩

/-- **The keypoints of each detection are those at the index of its candidate.** -/
theorem keypointDecode_reads {candidates : List (DetectionCandidate K)}
    {lists : List (KeypointsList K)}
    (h : keypointDecode nnData parser N exp candidates = .ok (some lists)) :
    ∃ t, keypointTensors nnData parser = .ok (some t) ∧
      List.Forall₂ (ReadAt nnData parser N exp t) candidates lists := by
  obtain ⟨opened, hopened, h⟩ := Loop.bind_eq_ok.1 h
  cases opened with
  | none => cases h
  | some t =>
    obtain ⟨lists', hlists, h⟩ := Loop.bind_eq_ok.1 h
    cases h
    exact ⟨t, hopened, (Loop.mapM_eq_ok_iff.1 hlists).imp fun _ _ => readAt_of_keypointsOf⟩

end Decode

/-! ### The place of a cell -/

/-- The index of a candidate is the place of its cell in the head, when the rows of the head follow
one another, as it is within the head and no other cell has it. -/
structure OwnCells (layers : List (ℕ × Layer K)) (featureMapWidths : List ℤ)
    (candidates : List (DetectionCandidate K)) : Prop where
  index : ∀ c ∈ candidates, ∀ layer, (c.headIndex, layer) ∈ layers →
    flattenedIndex featureMapWidths c = .ok (c.rowIndex * layer.width + c.columnIndex : ℕ)
  within : ∀ c ∈ candidates, ∀ layer, (c.headIndex, layer) ∈ layers →
    ∀ i : ℕ, flattenedIndex featureMapWidths c = .ok i → i < layer.height * layer.width
  distinct : ∀ c ∈ candidates, ∀ c' ∈ candidates, c.headIndex = c'.headIndex →
    flattenedIndex featureMapWidths c = flattenedIndex featureMapWidths c' →
    c.rowIndex = c'.rowIndex ∧ c.columnIndex = c'.columnIndex

/-- The width in the description of a head as it was received. -/
def describedWidth (nnData : NNOutput K) (parser : KeypointOptions K) (headIndex : ℕ) :
    Option ℤ := do
  let layerName ← (resolveLayerNames nnData.toNNData parser.outputNamesToUse "_yolo")[headIndex]?
  let tensorInfo ← getTensorInfo nnData.toNNData layerName
  tensorInfo.getWidth.toOption

/-- The first row, or a description with the width that the decoder goes by; and a place that is an
`int`. -/
structure RightWidth (nnData : NNOutput K) (parser : KeypointOptions K) (layer : Layer K)
    (c : DetectionCandidate K) : Prop where
  width : c.rowIndex = 0 ∨ describedWidth nnData parser c.headIndex = some (layer.width : ℤ)
  lt : c.rowIndex * layer.width + c.columnIndex < 2 ^ 31

section Cells

variable {layers : List (ℕ × Layer K)} {layer : Layer K} {place : Place} {strideIdx : ℕ}

theorem lt_of_mem_places {numAnchors : ℕ} (h : place ∈ layer.places strideIdx numAnchors) :
    place.headIndex = strideIdx ∧ place.rowIndex < layer.height ∧
      place.columnIndex < layer.width := by
  obtain ⟨row, hrow, h⟩ := List.mem_flatMap.1 h
  obtain ⟨col, hcol, h⟩ := List.mem_flatMap.1 h
  obtain ⟨a, -, rfl⟩ := List.mem_map.1 h
  exact ⟨rfl, List.mem_range.1 hrow, List.mem_range.1 hcol⟩

variable [Field K] [LinearOrder K] {nnData : NNOutput K} {parser : DetectionParserOptions K}
  {N : Numbers T K} {sigmoid exp : K → K} {c : DetectionCandidate K}

/-- A candidate has the place of the cell that yields it. -/
theorem place_of_yields {item : Place × Cell K} (h : yields nnData parser item = some c) :
    c.headIndex = item.1.headIndex ∧ c.rowIndex = item.1.rowIndex ∧
      c.columnIndex = item.1.columnIndex := by
  have hcell : ∀ {b}, decodeCell nnData parser item.1 item.2 = some b →
      b.headIndex = item.1.headIndex ∧ b.rowIndex = item.1.rowIndex ∧
        b.columnIndex = item.1.columnIndex := by
    intro b hb
    obtain ⟨-, -, -, rfl⟩ := decodeCell_eq_some_iff.1 hb
    exact ⟨rfl, rfl, rfl⟩
  cases hfamily : parser.decodingFamily with
  | R1AF | v3AB | v5AB | TLBR =>
    simp only [yields, hfamily] at h
    exact hcell h
  | YOLO26 =>
    simp only [yields, hfamily] at h
    split_ifs at h with hrow
    obtain ⟨-, -, rfl⟩ := decodeCellEndToEnd_eq_some_iff.1 h
    exact ⟨rfl, rfl, rfl⟩

/-- **A candidate belongs to a cell of a layer that was decoded.** -/
theorem exists_layer_of_decodeYolo {candidates : List (DetectionCandidate K)}
    (hlayers : acceptedLayers N nnData parser = .ok layers)
    (hdecode : decodeYolo N sigmoid exp nnData parser = .ok candidates) (hc : c ∈ candidates) :
    ∃ layer, (c.headIndex, layer) ∈ layers ∧ c.rowIndex < layer.height ∧
      c.columnIndex < layer.width := by
  obtain ⟨layers', hlayers', rfl⟩ := decodeYolo_eq_ok_iff.1 hdecode
  rw [hlayers] at hlayers'
  cases hlayers'
  obtain ⟨item, hitem, hyield⟩ := List.mem_filterMap.1 hc
  obtain ⟨⟨strideIdx, layer⟩, hlayer, hitem⟩ := List.mem_flatMap.1 hitem
  obtain ⟨place, hplace, rfl⟩ := List.mem_map.1 hitem
  obtain ⟨hhead, hrow, hcol⟩ := place_of_yields hyield
  obtain ⟨hhead', hrow', hcol'⟩ := lt_of_mem_places hplace
  dsimp only at hhead hrow hcol hhead' hrow' hcol'
  refine ⟨layer, ?_, ?_, ?_⟩
  · rw [hhead, hhead']
    exact hlayer
  · rwa [hrow]
  · rwa [hcol]

end Cells

theorem lt_of_mem_acceptedLayers [Field K] {nnData : NNOutput K}
    {parser : DetectionParserOptions K} {N : Numbers T K} {layers : List (ℕ × Layer K)}
    {layer : ℕ × Layer K} (h : acceptedLayers N nnData parser = .ok layers)
    (hlayer : layer ∈ layers) :
    layer.1 < (resolveLayerNames nnData.toNNData parser.outputNamesToUse "_yolo").length := by
  have hall : ∀ {layerNames : List String}
      {openAt : ℕ → String → Except Failure (Option (Layer K))},
      forLayers layerNames openAt indexed = .ok layers → layer.1 < layerNames.length := by
    intro layerNames openAt h
    obtain ⟨found, hfound, h⟩ := Loop.bind_eq_ok.1 h
    cases h
    have hsub := sublist_of_forLayer (Loop.mapM_eq_ok_iff.1 hfound)
    rw [List.zipIdx_map_snd] at hsub
    have hmem := hsub.subset (List.mem_map_of_mem hlayer)
    rw [List.mem_range'_1, Nat.zero_add] at hmem
    exact hmem.2
  have hfree : ∀ what, anchorFree N nnData parser what indexed = .ok layers → layer.1 <
      (resolveLayerNames nnData.toNNData parser.outputNamesToUse "_yolo").length := by
    intro what h
    obtain ⟨_, -, h⟩ := Loop.bind_eq_ok.1 h
    obtain ⟨_, -, h⟩ := Loop.bind_eq_ok.1 h
    exact hall h
  have hbased : anchorBased N nnData parser indexed = .ok layers → layer.1 <
      (resolveLayerNames nnData.toNNData parser.outputNamesToUse "_yolo").length := by
    intro h
    obtain ⟨_, -, h⟩ := Loop.bind_eq_ok.1 h
    obtain ⟨_, -, h⟩ := Loop.bind_eq_ok.1 h
    obtain ⟨_, -, h⟩ := Loop.bind_eq_ok.1 h
    exact hall h
  rw [acceptedLayers] at h
  cases hfamily : parser.decodingFamily with
  | R1AF | TLBR =>
    rw [hfamily] at h
    exact hfree _ h
  | v3AB | v5AB =>
    rw [hfamily] at h
    exact hbased h
  | YOLO26 =>
    rw [hfamily] at h
    obtain ⟨opened, hopened, h⟩ := Loop.bind_eq_ok.1 h
    obtain ⟨_, hone, -⟩ := Loop.bind_eq_ok.1 hopened
    cases opened with
    | none =>
      cases h
      cases hlayer
    | some opened =>
      cases h
      cases List.mem_singleton.1 hlayer
      rw [check_eq_ok_iff.1 hone]
      exact Nat.one_pos

theorem place_pair (height width row col : ℕ) :
    RowMajor.place [height, width] [row, col] = row * width + col := by
  simp only [RowMajor.place, List.prod_singleton, List.prod_nil, mul_one, add_zero]

section Index

variable {nnData : NNOutput K} {parser : KeypointOptions K} {t : KeypointTensors K}
  {c : DetectionCandidate K} {layer : Layer K}

theorem toOption_featureMapWidth (layerName : String) :
    (featureMapWidth nnData layerName).toOption.join =
      (getTensorInfo nnData.toNNData layerName).bind fun info => info.getWidth.toOption := by
  rw [featureMapWidth]
  cases getTensorInfo nnData.toNNData layerName with
  | none => rfl
  | some tensorInfo =>
    rw [Option.bind_some]
    dsimp only
    cases tensorInfo.getWidth with
    | error e => rfl
    | ok width => rfl

theorem gather_of_keypointTensors (ht : keypointTensors nnData parser = .ok (some t)) :
    gather (featureMapWidth nnData)
      (resolveLayerNames nnData.toNNData parser.outputNamesToUse "_yolo") =
        .ok (some t.featureMapWidths) := by
  obtain ⟨nKeypoints, -, ht⟩ := Loop.bind_eq_ok.1 ht
  obtain ⟨opened, hopened, ht⟩ := Loop.bind_eq_ok.1 ht
  cases opened with
  | none => cases ht
  | some widths =>
    obtain ⟨_, -, ht⟩ := Loop.bind_eq_ok.1 ht
    obtain ⟨values, -, ht⟩ := Loop.bind_eq_ok.1 ht
    cases values with
    | none => cases ht
    | some values =>
      cases ht
      exact hopened

/-- The widths are those of the descriptions as they were received. -/
theorem getElem?_featureMapWidths (ht : keypointTensors nnData parser = .ok (some t)) (i : ℕ) :
    t.featureMapWidths[i]? = describedWidth nnData parser i := by
  rw [getElem?_of_forall₂ (gather_eq_some (gather_of_keypointTensors ht)), describedWidth]
  simp only [toOption_featureMapWidth]
  rfl

/-- **The index of a candidate of a cell.** -/
theorem flattenedIndex_eq_iff (ht : keypointTensors nnData parser = .ok (some t))
    (hhead : c.headIndex <
      (resolveLayerNames nnData.toNNData parser.outputNamesToUse "_yolo").length) :
    flattenedIndex t.featureMapWidths c = .ok (c.rowIndex * layer.width + c.columnIndex : ℕ) ↔
      RightWidth nnData parser layer c := by
  rw [(gather_eq_some (gather_of_keypointTensors ht)).length_eq] at hhead
  obtain ⟨width, hwidth⟩ : ∃ width, t.featureMapWidths[c.headIndex]? = some width :=
    ⟨_, List.getElem?_eq_getElem hhead⟩
  have hdescribed : describedWidth nnData parser c.headIndex = some width := by
    rw [← getElem?_featureMapWidths ht, hwidth]
  rw [flattenedIndex, hwidth]
  constructor
  · intro h
    obtain ⟨offset, hoffset, h⟩ := Loop.bind_eq_ok.1 h
    obtain ⟨rfl, -, -⟩ := int_eq_ok_iff.1 hoffset
    obtain ⟨hsum, -, hlt⟩ := int_eq_ok_iff.1 h
    rw [hsum] at hlt
    refine ⟨?_, by exact_mod_cast hlt⟩
    push_cast at hsum
    have hproduct : (c.rowIndex : ℤ) * width = c.rowIndex * layer.width := add_right_cancel hsum
    obtain heq | hzero := mul_eq_mul_left_iff.1 hproduct
    · exact .inr (hdescribed.trans (congrArg some heq))
    · exact .inl (by exact_mod_cast hzero)
  · rintro ⟨hcase, hlt⟩
    have hproduct : (c.rowIndex : ℤ) * width = c.rowIndex * layer.width := by
      obtain hzero | heq := hcase
      · rw [hzero, Nat.cast_zero, zero_mul, zero_mul]
      · rw [Option.some.inj (hdescribed.symm.trans heq)]
    have hlt' : (c.rowIndex : ℤ) * layer.width + c.columnIndex < 2 ^ 31 := by exact_mod_cast hlt
    have hpos : (0 : ℤ) ≤ c.rowIndex * layer.width := by positivity
    refine Loop.bind_eq_ok.2 ⟨c.rowIndex * layer.width, ?_, ?_⟩
    · refine int_eq_ok_iff.2 ⟨hproduct, ?_⟩
      rw [hproduct]
      omega
    · refine int_eq_ok_iff.2 ⟨by push_cast; rfl, ?_⟩
      omega

variable [Field K] [LinearOrder K] {N : Numbers T K} {sigmoid exp : K → K}
  {layers : List (ℕ × Layer K)} {candidates keep : List (DetectionCandidate K)}

/-- **The keypoints of each candidate are read at its own cell exactly if its head is described with
the width that the decoder went by.** -/
theorem ownCells_iff (hlayers : acceptedLayers N nnData parser.toDetectionParserOptions = .ok layers)
    (hdecode : decodeYolo N sigmoid exp nnData parser.toDetectionParserOptions = .ok candidates)
    (hkeep : keep ⊆ candidates) (ht : keypointTensors nnData parser = .ok (some t)) :
    OwnCells layers t.featureMapWidths keep ↔
      ∀ c ∈ keep, ∀ layer, (c.headIndex, layer) ∈ layers → RightWidth nnData parser layer c := by
  have hindex : ∀ c layer, (c.headIndex, layer) ∈ layers →
      (flattenedIndex t.featureMapWidths c = .ok (c.rowIndex * layer.width + c.columnIndex : ℕ) ↔
        RightWidth nnData parser layer c) := fun c layer hlayer =>
    flattenedIndex_eq_iff ht (lt_of_mem_acceptedLayers hlayers hlayer)
  constructor
  · intro h c hc layer hlayer
    exact (hindex c layer hlayer).1 (h.index c hc layer hlayer)
  intro h
  have hown : ∀ c ∈ keep, ∃ layer, (c.headIndex, layer) ∈ layers ∧ c.rowIndex < layer.height ∧
      c.columnIndex < layer.width ∧ flattenedIndex t.featureMapWidths c =
        .ok (c.rowIndex * layer.width + c.columnIndex : ℕ) := by
    intro c hc
    obtain ⟨layer, hlayer, hrow, hcol⟩ := exists_layer_of_decodeYolo hlayers hdecode (hkeep hc)
    exact ⟨layer, hlayer, hrow, hcol, (hindex c layer hlayer).2 (h c hc layer hlayer)⟩
  -- The layers have different indices, so a candidate has one layer.
  have hunique : ∀ {i layer layer'}, (i, layer) ∈ layers → (i, layer') ∈ layers →
      layer = layer' := fun hlayer hlayer' => congrArg Prod.snd
    (List.inj_on_of_nodup_map (acceptedLayers_nodup hlayers) hlayer hlayer' rfl)
  refine ⟨fun c hc layer hlayer => (hindex c layer hlayer).2 (h c hc layer hlayer), ?_, ?_⟩
  · intro c hc layer hlayer i hi
    obtain ⟨layer', hlayer', hrow, hcol, hcell⟩ := hown c hc
    cases hunique hlayer hlayer'
    have hi : c.rowIndex * layer.width + c.columnIndex = i := by
      exact_mod_cast Except.ok.inj (hcell.symm.trans hi)
    have hlt := RowMajor.place_lt (.cons hrow (.cons hcol .nil))
    rw [place_pair, List.prod_pair] at hlt
    rwa [← hi]
  · intro c hc c' hc' hhead heq
    obtain ⟨layer, hlayer, hrow, hcol, hcell⟩ := hown c hc
    obtain ⟨layer', hlayer', hrow', hcol', hcell'⟩ := hown c' hc'
    rw [hhead] at hlayer
    cases hunique hlayer hlayer'
    have heq : c.rowIndex * layer.width + c.columnIndex =
        c'.rowIndex * layer.width + c'.columnIndex := by
      exact_mod_cast Except.ok.inj (hcell.symm.trans (heq.trans hcell'))
    rw [← place_pair layer.height, ← place_pair layer.height] at heq
    have hcells := RowMajor.place_injective (.cons hrow (.cons hcol .nil))
      (.cons hrow' (.cons hcol' .nil)) heq
    obtain ⟨hrows, hcols⟩ := List.cons_eq_cons.1 hcells
    exact ⟨hrows, List.head_eq_of_cons_eq hcols⟩

end Index

/-! ### A head with two rows -/

namespace TwoRows

open SingleCell (fractions logistic)

/-- Two cells of six channels each, one below the other, and three channels of keypoints for both.
The second cell has a box. -/
def output (order : StorageOrder) : NNOutput ℚ where
  bytes := [0, 0, 0, 0, 0, 0, 4, 4, 4, 4, 1, 1, 8, 2, 8, 6, 0, 0]
  tensors := [
    { order, dataType := .I8, numDimensions := 3, dims := [2, 1, 6], strides := [6, 6, 1],
      name := "output_yolo", offset := 0, qpScale := 1, qpZp := 0 },
    { order := .CHW, dataType := .I8, numDimensions := 3, dims := [3, 1, 2], strides := [2, 2, 1],
      name := "kpt_output", offset := 12, qpScale := 1, qpZp := 0 }]
  inputWidth := 8
  inputHeight := 8

/-- A network with one class and one keypoint. -/
def options : KeypointOptions ℚ where
  confidenceThreshold := 2 / 5
  decodingFamily := .R1AF
  classes := 1
  coordinates := 4
  strides := [8]
  nKeypoints := some 1

/-- What is found. -/
def candidate : DetectionCandidate ℚ := ⟨2, 2, 6, 6, 1, 0, 0, 1, 0, none⟩

theorem decodeYolo_output (order : StorageOrder) (h : order = .HWC ∨ order = .CHW) :
    decodeYolo fractions logistic logistic (output order) options.toDetectionParserOptions =
      .ok [candidate] := by
  obtain rfl | rfl := h
  · decide +kernel
  · decide +kernel

end TwoRows

open TwoRows (candidate decodeYolo_output)

open SingleCell (fractions logistic)

/-- The description says where the channels are. -/
theorem ownCells_iff_twoRows : ∃ layers, ∃ t : KeypointTensors ℚ,
    acceptedLayers fractions (TwoRows.output .HWC) TwoRows.options.toDetectionParserOptions =
      .ok layers ∧
    (OwnCells layers t.featureMapWidths [candidate] ↔ ∀ c ∈ [candidate], ∀ layer,
      (c.headIndex, layer) ∈ layers → RightWidth (TwoRows.output .HWC) TwoRows.options layer c) :=
  ⟨_, _, rfl, ownCells_iff rfl (decodeYolo_output .HWC (.inl rfl)) (List.Subset.refl _) rfl⟩

/-- The decoder finds the six channels in the last place and goes through one column. The
description says that this place is the width. -/
theorem not_ownCells : ∃ layers, ∃ t : KeypointTensors ℚ,
    acceptedLayers fractions (TwoRows.output .CHW) TwoRows.options.toDetectionParserOptions =
      .ok layers ∧
    keypointTensors (TwoRows.output .CHW) TwoRows.options = .ok (some t) ∧
    decodeYolo fractions logistic logistic (TwoRows.output .CHW)
      TwoRows.options.toDetectionParserOptions = .ok [candidate] ∧
    flattenedIndex t.featureMapWidths candidate = .ok 6 ∧
    ¬OwnCells layers t.featureMapWidths [candidate] := by
  refine ⟨_, _, rfl, rfl, decodeYolo_output .CHW (.inr rfl), by decide, fun h => ?_⟩
  have hown := h.index candidate List.mem_cons_self _ List.mem_cons_self
  exact absurd hown (by decide)

end DetectionParserUtils

end DepthaiCore
