import DepthaiCore.Datatype.SpatialImgDetections
import DepthaiCore.Lib.OrderStatistics

/-!
# Detections there and back

A message goes to another frame and back. Its boxes say whether they are fractions, and they come
back by their corners. Its keypoints say nothing, so a keypoint by fractions that leaves the frame
is taken for a pixel on the way back. Coordinates in space go by the motion between the cameras,
which has an inverse.
-/

open scoped Numerals

namespace DepthaiCore

open MatrixOps Matrix Homography RigidMotion

variable {K : Type} [Field K] [LinearOrder K]

/-! ### Corners -/

omit [LinearOrder K] in
theorem RotatedRect.corners_of_place {trig : Trigonometry K} {rect rect' : RotatedRect K}
    (h : rect.place = rect'.place) : rect.corners trig = rect'.corners trig := by
  simp only [place, Point2f.coordinates, Prod.mk.injEq] at h
  obtain ⟨⟨hx, hy⟩, ⟨hwidth, hheight⟩, hangle⟩ := h
  simp only [corners, getPoints, hx, hy, hwidth, hheight, hangle]

/-- **The outer box goes by the corners.** -/
theorem RotatedRect.getOuterRect_eq {trig : Trigonometry K} {rect rect' : RotatedRect K}
    (h : (rect.corners trig).Perm (rect'.corners trig)) :
    rect.getOuterRect trig = rect'.getOuterRect trig := by
  have hx := h.map Prod.fst
  have hy := h.map Prod.snd
  simp only [corners, List.map_map] at hx hy
  have hfst : (Prod.fst ∘ Point2f.coordinates : Point2f K → K) = Point2f.x := rfl
  have hsnd : (Prod.snd ∘ Point2f.coordinates : Point2f K → K) = Point2f.y := rfl
  rw [hfst] at hx
  rw [hsnd] at hy
  simp only [getOuterRect, OrderStatistics.min?_eq_of_perm hx, OrderStatistics.min?_eq_of_perm hy,
    OrderStatistics.max?_eq_of_perm hx, OrderStatistics.max?_eq_of_perm hy]

/-- **What is expected of the rectangle that is fitted around points.** It says nothing of itself,
it does not depend on their order, and it is exact for the corners of a rectangle. -/
structure FitsRectangles (num : Numerics K) : Prop where
  unflagged : ∀ points, (num.getOuterRotatedRect points).Unflagged
  perm : ∀ {points points' : List (K × K)}, points.Perm points' →
    num.getOuterRotatedRect points = num.getOuterRotatedRect points'
  corners : ∀ rect : RotatedRect K,
    ((num.getOuterRotatedRect (rect.corners num.toTrigonometry)).corners num.toTrigonometry).Perm
      (rect.corners num.toTrigonometry)
namespace ImgTransformation

variable {num : Numerics K} {socket : CameraBoardSocket} {t u : ImgTransformation K}

/-- A pixel of one frame that has a place in the other, from which there is a way back. -/
def BothWays (t u : ImgTransformation K) (q : K × K) : Prop :=
  Clear t u q ∧ Clear u t (along (route t u) q)

/-- What is supposed of the two frames: both are valid, no lens distorts, the stored inverses are
inverses, the poses are relative to one socket, and comparisons with a tolerance find only what is
equal. -/
structure Pair (socket : CameraBoardSocket) (t u : ImgTransformation K) : Prop where
  left : Remapping socket t
  right : Remapping socket u
  exact : t.isEqualTransformation u → SameCompared t u
  exact' : u.isEqualTransformation t → SameCompared u t
  valid : t.isValid
  valid' : u.isValid

theorem Pair.symm (h : Pair socket t u) : Pair socket u t :=
  ⟨h.right, h.left, h.exact', h.exact, h.valid', h.valid⟩

/-- **A pixel comes back.** -/
theorem Pair.along_back (h : Pair socket t u) {q : K × K} (hq : BothWays t u q) :
    along (route u t) (along (route t u) q) = q := by
  rw [along_along h.left h.right h.left h.exact h.exact' hq.1 hq.2,
    transfer_self (h.left.inverted.isUnit_camera h.left.relativeTo), image_one]

/-! ### Points -/

/-- Where a point goes, as coordinates that say nothing. -/
def unsaid (t u : ImgTransformation K) (p : Point2f K) : Point2f K :=
  .ofCoordinates (u.ofPixel p.isNormalized (along (route t u) (t.pixel p))).coordinates

/-- **A point is read on the way back as it was meant**, or the two readings lead to one place. -/
def ReadsBack (t u : ImgTransformation K) (p : Point2f K) : Prop :=
  (t.unsaid u p).isNormalized = p.isNormalized ∨
    Clear u t (u.pixel (t.unsaid u p)) ∧
      (u.unsaid t (t.unsaid u p)).coordinates =
        (t.ofPixel p.isNormalized
          (along (route u t) (along (route t u) (t.pixel p)))).coordinates

section Points

variable [IsStrictOrderedRing K]

theorem remapPointTo_eq_ok (h : Pair socket t u) {p r : Point2f K}
    (hr : t.remapPointTo num u p = .ok r) :
    Clear t u (t.pixel p) ∧
      r = u.ofPixel p.isNormalized (along (route t u) (t.pixel p)) := by
  rw [remapPointTo_eq_remapPixel] at hr
  obtain ⟨s, hs, -⟩ := Loop.bind_eq_ok.1 hr
  rw [← remapPointTo_eq_remapPixel] at hr
  have hclear := clear_of_remapPixel h.left.relativeTo h.right.relativeTo h.left.undistorted
    h.right.undistorted hs
  have hmap : Remappable t u p :=
    ⟨hclear, fun _ => ⟨hasSize_of_isValid h.valid, hasSize_of_isValid h.valid'⟩⟩
  rw [remapPointTo_eq h.left.relativeTo h.right.relativeTo h.left.undistorted h.right.undistorted
    hmap] at hr
  exact ⟨hclear, (Except.ok.inj hr).symm⟩

theorem remapPointTo_of_clear (h : Pair socket t u) {p : Point2f K} (hp : Clear t u (t.pixel p)) :
    t.remapPointTo num u p =
      .ok (u.ofPixel p.isNormalized (along (route t u) (t.pixel p))) :=
  remapPointTo_eq h.left.relativeTo h.right.relativeTo h.left.undistorted h.right.undistorted
    ⟨hp, fun _ => ⟨hasSize_of_isValid h.valid, hasSize_of_isValid h.valid'⟩⟩

/-- The pixel of the coordinates that come out, if they are read as they are meant. -/
theorem pixel_unsaid (h : Pair socket t u) {p : Point2f K}
    (hread : (t.unsaid u p).isNormalized = p.isNormalized) :
    u.pixel (t.unsaid u p) = along (route t u) (t.pixel p) := by
  obtain ⟨hwidth, hheight⟩ := hasSize_of_isValid h.valid'
  rw [pixel, hread, unsaid]
  cases p.isNormalized with
  | false => rfl
  | true =>
    simp [ofPixel, Point2f.ofCoordinates, Point2f.coordinates, div_mul_cancel₀ _ hwidth,
      div_mul_cancel₀ _ hheight]

/-- **Which points come back** by their coordinates. -/
theorem point_back_iff (h : Pair socket t u) {p : Point2f K} (hp : BothWays t u (t.pixel p)) :
    (∃ r, u.remapPointTo num t (t.unsaid u p) = .ok r ∧ r.coordinates = p.coordinates) ↔
      ReadsBack t u p := by
  have hback : (t.ofPixel p.isNormalized
      (along (route u t) (along (route t u) (t.pixel p)))).coordinates = p.coordinates := by
    rw [h.along_back hp]
    exact coordinates_ofPixel_pixel fun _ => hasSize_of_isValid h.valid
  rw [ReadsBack, hback]
  constructor
  · rintro ⟨r, hr, hcoordinates⟩
    obtain ⟨hclear, rfl⟩ := remapPointTo_eq_ok h.symm hr
    exact .inr ⟨hclear, hcoordinates⟩
  · rintro (hread | ⟨hclear, hcoordinates⟩)
    · have hpixel := pixel_unsaid h hread
      refine ⟨_, remapPointTo_of_clear h.symm (by rw [hpixel]; exact hp.2), ?_⟩
      rw [hpixel, hread, hback]
    · exact ⟨_, remapPointTo_of_clear h.symm hclear, hcoordinates⟩

end Points

/-! ### Boxes -/

/-- **What is read of points and of the rectangle around them.** No point is taken for fractions,
nor are the centre and the size. -/
structure Plainly (num : Numerics K) (points : List (K × K)) : Prop where
  corners : ∀ q ∈ points, guessNormalized q.1 q.2 = false
  center : guessNormalized (num.getOuterRotatedRect points).center.x
    (num.getOuterRotatedRect points).center.y = false
  size : guessNormalized (num.getOuterRotatedRect points).size.width
    (num.getOuterRotatedRect points).size.height = false

/-- The box by fractions around points in pixels of the frame. -/
def fractions (num : Numerics K) (t : ImgTransformation K) (points : List (K × K)) :
    RotatedRect K :=
  (num.getOuterRotatedRect points).scaledBy (t.width : K)⁻¹ (t.height : K)⁻¹ true

/-- The sizes of the frame fit `unsigned int`. -/
def FitsUnsigned (t : ImgTransformation K) : Prop :=
  t.width < 2 ^ 32 ∧ t.height < 2 ^ 32

section Boxes

variable [IsStrictOrderedRing K] {rect : RotatedRect K} {points : List (K × K)}

/-- **A box that is remapped** is the one by fractions around where its corners go. -/
theorem remapRectTo_eq_fractions (h : Pair socket t u) (hfits : FitsRectangles num)
    (ht : t.FitsUnsigned) (hu : u.FitsUnsigned) (hread : rect.isNormalized = .ok true)
    (hclear : ∀ q ∈ t.pixelCorners num true rect, Clear t u q)
    (hcorners : ∀ q ∈ t.pixelCorners num true rect, guessNormalized q.1 q.2 = false)
    (hperm : ((t.pixelCorners num true rect).map (along (route t u))).Perm points)
    (hplainly : Plainly num points) :
    t.remapRectTo num u rect = .ok (u.fractions num points) := by
  have hgo : Images num t (t.remapPointTo num u) true rect
      ((t.pixelCorners num true rect).map (along (route t u))) := by
    refine List.forall₂_map_right_iff.2 (List.forall₂_same.2 fun q hq => ?_)
    exact ⟨_, remapPointTo_of_clear h (hclear q hq), rfl⟩
  obtain ⟨-, -, hwidth, hheight⟩ := of_decide_eq_true h.valid'
  have houter := (hfits.unflagged points).isNormalized
  rw [hplainly.size, hplainly.center, if_neg (not_not_intro rfl)] at houter
  rw [remapRectTo, carryRect_eq hread h.valid (fun _ => ht)
    (hgo.mapM_eq reads_remapPointTo hcorners), if_pos rfl, toUnsigned_of_lt hu.1,
    toUnsigned_of_lt hu.2, RotatedRect.normalize_eq _ hwidth.ne' hheight.ne', hfits.perm hperm,
    houter, Loop.ok_bind, if_neg (by simp), fractions]

omit [LinearOrder K] [IsStrictOrderedRing K] in
/-- In pixels again, the box by fractions is the rectangle around the points. -/
theorem pixelCorners_fractions (hsize : t.HasSize) (points : List (K × K)) :
    t.pixelCorners num true (t.fractions num points) =
      (num.getOuterRotatedRect points).corners num.toTrigonometry := by
  obtain ⟨hwidth, hheight⟩ := hsize
  refine RotatedRect.corners_of_place ?_
  rw [pixelRect, if_pos rfl, fractions]
  simp [RotatedRect.scaledBy, RotatedRect.place, Point2f.coordinates,
    inv_mul_cancel_right₀ hwidth, inv_mul_cancel_right₀ hheight]

omit [LinearOrder K] [IsStrictOrderedRing K] in
/-- The corners of the rectangle around points that are those of a rectangle, in some order. -/
theorem corners_perm (hfits : FitsRectangles num)
    (hpoints : ∃ rect : RotatedRect K, points.Perm (rect.corners num.toTrigonometry)) :
    ((num.getOuterRotatedRect points).corners num.toTrigonometry).Perm points := by
  obtain ⟨rect, hperm⟩ := hpoints
  rw [hfits.perm hperm]
  exact (hfits.corners rect).trans hperm.symm

/-- **What is supposed of a box.** It is by fractions, its corners go to those of a rectangle and
back, and nothing on the way is taken for what it is not. -/
structure Boxed (num : Numerics K) (t u : ImgTransformation K) (rect : RotatedRect K) : Prop where
  isNormalized : rect.isNormalized = .ok true
  bothWays : ∀ q ∈ t.pixelCorners num true rect, BothWays t u q
  rectangle : ∃ rect' : RotatedRect K,
    ((t.pixelCorners num true rect).map (along (route t u))).Perm
      (rect'.corners num.toTrigonometry)
  plainly : Plainly num (t.pixelCorners num true rect)
  plainly' : Plainly num ((t.pixelCorners num true rect).map (along (route t u)))

/-- **A box there and back** is the one by fractions around its own corners. -/
theorem box_back (h : Pair socket t u) (hfits : FitsRectangles num) (ht : t.FitsUnsigned)
    (hu : u.FitsUnsigned) (hbox : Boxed num t u rect) :
    ∃ rect', t.remapRectTo num u rect = .ok rect' ∧
      u.remapRectTo num t rect' = .ok (t.fractions num (t.pixelCorners num true rect)) := by
  refine ⟨_, remapRectTo_eq_fractions h hfits ht hu hbox.isNormalized
    (fun q hq => (hbox.bothWays q hq).1) hbox.plainly.corners (.refl _) hbox.plainly', ?_⟩
  -- the corners of the box in between are where the corners went, in some order
  have hperm : (u.pixelCorners num true (u.fractions num
      ((t.pixelCorners num true rect).map (along (route t u))))).Perm
        ((t.pixelCorners num true rect).map (along (route t u))) := by
    rw [pixelCorners_fractions (hasSize_of_isValid h.valid')]
    exact corners_perm hfits hbox.rectangle
  have hback : ((t.pixelCorners num true rect).map (along (route t u))).map (along (route u t)) =
      t.pixelCorners num true rect := by
    rw [List.map_map]
    refine (List.map_congr_left fun q hq => ?_).trans (List.map_id _)
    exact h.along_back (hbox.bothWays q hq)
  refine remapRectTo_eq_fractions h.symm hfits hu ht
    (RotatedRect.says_scaledBy _ _ _ _).isNormalized (fun q hq => ?_)
    (fun q hq => hbox.plainly'.corners q (hperm.mem_iff.1 hq))
    ((hperm.map (along (route u t))).trans (.of_eq hback)) hbox.plainly
  obtain ⟨p, hp, rfl⟩ := List.mem_map.1 (hperm.mem_iff.1 hq)
  exact (hbox.bothWays p hp).2

end Boxes

end ImgTransformation
/-! ### Keypoints -/

section Keypoints

open ImgTransformation

variable [IsStrictOrderedRing K] {num : Numerics K} {socket : CameraBoardSocket}
  {t u : ImgTransformation K}

theorem Keypoint.back_iff (h : Pair socket t u) {kp : Keypoint K}
    (hkp : BothWays t u (t.pixel kp.imgCoordinates2f)) :
    (∃ kp' kp'', kp.transform num t u = .ok kp' ∧ kp'.transform num u t = .ok kp'' ∧ kp = kp'') ↔
      ReadsBack t u kp.imgCoordinates2f := by
  have hthere : kp.transform num t u = .ok (kp.setPoint (t.unsaid u kp.imgCoordinates2f)) := by
    rw [transform, remapPointTo_of_clear h hkp.1]
    rfl
  rw [← @point_back_iff K _ _ num _ _ _ _ h _ hkp]
  constructor
  · rintro ⟨kp', kp'', hkp', hkp'', rfl⟩
    obtain rfl := Except.ok.inj (hthere.symm.trans hkp')
    obtain ⟨r, hr, hset⟩ := Loop.bind_eq_ok.1 hkp''
    exact ⟨r, hr, congrArg (fun kp => kp.imgCoordinates2f.coordinates) (Except.ok.inj hset)⟩
  · rintro ⟨r, hr, hcoordinates⟩
    refine ⟨_, _, hthere, Loop.bind_eq_ok.2 ⟨r, hr, rfl⟩, ?_⟩
    obtain ⟨hx, hy⟩ := Prod.mk.inj hcoordinates
    simp only [setPoint, hx, hy]
    rfl

/-- **Which lists of keypoints come back**: with their order, their edges and all that they say. -/
theorem KeypointsListT.back_iff (h : Pair socket t u) {list : KeypointsListT (Keypoint K)}
    (hlist : ∀ kp ∈ list.keypoints, BothWays t u (t.pixel kp.imgCoordinates2f)) :
    (∃ list', list.transformTo num t u = .ok list' ∧ list'.transformTo num u t = .ok list) ↔
      ∀ kp ∈ list.keypoints, ReadsBack t u kp.imgCoordinates2f := by
  have hrounds : (∀ kp ∈ list.keypoints, ReadsBack t u kp.imgCoordinates2f) ↔
      ∃ kps kps', list.keypoints.mapM (Keypoint.transform num · t u) = .ok kps ∧
        kps.mapM (Keypoint.transform num · u t) = .ok kps' ∧
        List.Forall₂ (· = ·) list.keypoints kps' := by
    rw [Loop.exists_mapM_mapM_iff]
    exact forall₂_congr fun kp hkp => (Keypoint.back_iff h (hlist kp hkp)).symm
  rw [hrounds]
  constructor
  · rintro ⟨list', hlist', hback⟩
    obtain ⟨kps, hkps, hlist'⟩ := Loop.bind_eq_ok.1 hlist'
    obtain rfl := Except.ok.inj hlist'
    obtain ⟨kps', hkps', hback⟩ := Loop.bind_eq_ok.1 hback
    refine ⟨kps, kps', hkps, hkps', ?_⟩
    rw [List.forall₂_eq_eq_eq, ← congrArg keypoints (Except.ok.inj hback)]
  · rintro ⟨kps, kps', hkps, hkps', hsame⟩
    rw [List.forall₂_eq_eq_eq] at hsame
    refine ⟨{ list with keypoints := kps }, Loop.bind_eq_ok.2 ⟨kps, hkps, rfl⟩,
      Loop.bind_eq_ok.2 ⟨kps', hkps', ?_⟩⟩
    rw [← hsame]
    rfl

end Keypoints

/-! ### Messages -/

/-- **A detection is restored**: the corners of its box, by fractions and in pixels, the outer box,
the keypoints, and what the labels say. -/
structure ImgDetection.Restored (num : Numerics K) (t : ImgTransformation K)
    (before after : ImgDetection K) : Prop where
  box : ∃ rect rect', before.getBoundingBox = .ok rect ∧ after.boundingBox = some rect' ∧
    (rect'.corners num.toTrigonometry).Perm (rect.corners num.toTrigonometry) ∧
    (t.pixelCorners num true rect').Perm (t.pixelCorners num true rect) ∧
    (after.xmin, after.ymin, after.xmax, after.ymax) = rect.getOuterRect num.toTrigonometry
  keypoints : after.keypoints = before.keypoints
  labels : after.label = before.label ∧ after.labelName = before.labelName ∧
    after.confidence = before.confidence

/-- **The message comes back.** -/
def ImgDetections.RoundTrip (num : Numerics K) (t u : ImgTransformation K)
    (self : ImgDetections K) : Prop :=
  ∃ there back, self.transformTo num u = .ok there ∧ there.transformTo num t = .ok back ∧
    back.transformation = some t ∧
    List.Forall₂ (ImgDetection.Restored num t) self.detections back.detections

namespace ImgTransformation

/-- What is supposed of a detection: its box is, and its keypoints have places in the other frame
and ways back. -/
structure Detected (num : Numerics K) (t u : ImgTransformation K) (detection : ImgDetection K) :
    Prop where
  box : ∃ rect, detection.getBoundingBox = .ok rect ∧ Boxed num t u rect
  keypoints : ∀ list ∈ detection.keypoints, ∀ kp ∈ list.keypoints,
    BothWays t u (t.pixel kp.imgCoordinates2f)

/-- **The box is the rectangle around its own corners**, by fractions as well as in pixels. -/
def Refits (num : Numerics K) (t : ImgTransformation K) (rect : RotatedRect K) : Prop :=
  ((t.fractions num (t.pixelCorners num true rect)).corners num.toTrigonometry).Perm
    (rect.corners num.toTrigonometry)

/-- **What it takes for a detection to come back.** -/
structure ComesBack (num : Numerics K) (t u : ImgTransformation K) (detection : ImgDetection K) :
    Prop where
  box : ∀ rect, detection.getBoundingBox = .ok rect → Refits num t rect
  keypoints : ∀ list ∈ detection.keypoints, ∀ kp ∈ list.keypoints,
    ReadsBack t u kp.imgCoordinates2f

end ImgTransformation

section Messages

open ImgTransformation

variable [IsStrictOrderedRing K] {num : Numerics K} {socket : CameraBoardSocket}
  {t u : ImgTransformation K}

omit [IsStrictOrderedRing K] in
theorem ImgDetection.transform_eq {d : ImgDetection K} {rect rect' : RotatedRect K}
    (hrect : d.getBoundingBox = .ok rect) (hgo : t.remapRectTo num u rect = .ok rect') :
    d.transform num t u = match d.keypoints with
      | none => .ok ⟨d.setBoundingBox num.toTrigonometry rect', none⟩
      | some list => (list.transformTo num t u).map fun list' =>
          ⟨d.setBoundingBox num.toTrigonometry rect', some list'⟩ := by
  rw [transform, hrect, Loop.ok_bind, hgo, Loop.ok_bind]
  cases hkeypoints : d.keypoints with
  | none => rfl
  | some list => cases list.transformTo num t u <;> rfl

omit [IsStrictOrderedRing K] in
/-- What is restored of a detection whose box has gone there and back. -/
theorem ImgDetection.restored_iff (hfits : FitsRectangles num) (hsize : t.HasSize) {d : ImgDetection K}
    {rect rect' : RotatedRect K} (hrect : d.getBoundingBox = .ok rect)
    {kps : Option (KeypointsListT (Keypoint K))} :
    Restored num t d ⟨(d.setBoundingBox num.toTrigonometry rect').setBoundingBox num.toTrigonometry
        (t.fractions num (t.pixelCorners num true rect)), kps⟩ ↔
      Refits num t rect ∧ kps = d.keypoints := by
  constructor
  · rintro ⟨⟨rect₁, rect₂, h₁, h₂, hperm, -⟩, hkps, -⟩
    obtain rfl := Except.ok.inj (hrect.symm.trans h₁)
    obtain rfl := Option.some.inj h₂
    exact ⟨hperm, hkps⟩
  · rintro ⟨hrefits, rfl⟩
    refine ⟨⟨rect, _, hrect, rfl, hrefits, ?_, RotatedRect.getOuterRect_eq hrefits⟩, rfl, rfl, rfl,
      rfl⟩
    rw [pixelCorners_fractions hsize]
    exact hfits.corners _

/-- **Which detections come back.** -/
theorem ImgDetection.back_iff (h : Pair socket t u) (hfits : FitsRectangles num) (ht : t.FitsUnsigned)
    (hu : u.FitsUnsigned) {d : ImgDetection K} (hd : Detected num t u d) :
    (∃ d' d'', d.transform num t u = .ok d' ∧ d'.transform num u t = .ok d'' ∧
      Restored num t d d'') ↔ ComesBack num t u d := by
  obtain ⟨rect, hrect, hboxed⟩ := hd.box
  obtain ⟨rect', hgo, hback⟩ := box_back h hfits ht hu hboxed
  have hsize := hasSize_of_isValid h.valid
  have hthere := transform_eq hrect hgo
  have hbox : ComesBack num t u d ↔ Refits num t rect ∧ ∀ list ∈ d.keypoints,
      ∀ kp ∈ list.keypoints, ReadsBack t u kp.imgCoordinates2f := by
    refine ⟨fun hc => ⟨hc.box rect hrect, hc.keypoints⟩, fun hc => ⟨fun rect₁ h₁ => ?_, hc.2⟩⟩
    obtain rfl := Except.ok.inj (hrect.symm.trans h₁)
    exact hc.1
  rw [hbox]
  cases hkeypoints : d.keypoints with
  | none =>
    simp only [hkeypoints] at hthere
    have hagain : (⟨d.setBoundingBox num.toTrigonometry rect', none⟩ : ImgDetection K).transform
        num u t = .ok ⟨_, none⟩ := transform_eq rfl hback
    constructor
    · rintro ⟨d', d'', hd', hd'', hrestored⟩
      obtain rfl := Except.ok.inj (hthere.symm.trans hd')
      obtain rfl := Except.ok.inj (hagain.symm.trans hd'')
      exact ⟨((restored_iff hfits hsize hrect).1 hrestored).1,
        fun _ hlist => absurd hlist (Option.not_mem_none _)⟩
    · rintro ⟨hrefits, -⟩
      exact ⟨_, _, hthere, hagain, (restored_iff hfits hsize hrect).2 ⟨hrefits, hkeypoints.symm⟩⟩
  | some list =>
    simp only [hkeypoints] at hthere
    have hlist := hd.keypoints list hkeypoints
    have hall : (∀ list' ∈ some list, ∀ kp ∈ list'.keypoints,
        ReadsBack t u kp.imgCoordinates2f) ↔ ∃ list', list.transformTo num t u = .ok list' ∧
          list'.transformTo num u t = .ok list := by
      rw [KeypointsListT.back_iff h hlist]
      simp
    have hagain : ∀ list', (⟨d.setBoundingBox num.toTrigonometry rect', some list'⟩ :
        ImgDetection K).transform num u t = (list'.transformTo num u t).map fun list'' =>
          ⟨(d.setBoundingBox num.toTrigonometry rect').setBoundingBox num.toTrigonometry
            (t.fractions num (t.pixelCorners num true rect)), some list''⟩ := by
      intro list'
      exact transform_eq (d := ⟨d.setBoundingBox num.toTrigonometry rect', some list'⟩) rfl hback
    rw [hall]
    constructor
    · rintro ⟨d', d'', hd', hd'', hrestored⟩
      obtain ⟨list', hlist', rfl⟩ := Loop.map_eq_ok.1 (hthere.symm.trans hd')
      obtain ⟨list'', hlist'', rfl⟩ := Loop.map_eq_ok.1 ((hagain list').symm.trans hd'')
      obtain ⟨hrefits, hsame⟩ := (restored_iff hfits hsize hrect).1 hrestored
      rw [hkeypoints] at hsame
      obtain rfl := Option.some.inj hsame
      exact ⟨hrefits, list', hlist', hlist''⟩
    · rintro ⟨hrefits, list', hlist', hlist''⟩
      rw [hlist'] at hthere
      have hback' := hagain list'
      rw [hlist''] at hback'
      exact ⟨_, _, hthere, hback', (restored_iff hfits hsize hrect).2 ⟨hrefits, hkeypoints.symm⟩⟩

/-- **Which messages come back.** -/
theorem ImgDetections.back_iff (h : Pair socket t u) (hfits : FitsRectangles num) (ht : t.FitsUnsigned)
    (hu : u.FitsUnsigned) {m : ImgDetections K} (hm : m.transformation = some t)
    (hdetected : ∀ d ∈ m.detections, Detected num t u d) :
    m.RoundTrip num t u ↔ ∀ d ∈ m.detections, ComesBack num t u d := by
  have hrounds : (∀ d ∈ m.detections, ComesBack num t u d) ↔
      ∃ ds ds', m.detections.mapM (ImgDetection.transform num · t u) = .ok ds ∧
        ds.mapM (ImgDetection.transform num · u t) = .ok ds' ∧
        List.Forall₂ (ImgDetection.Restored num t) m.detections ds' := by
    rw [Loop.exists_mapM_mapM_iff]
    exact forall₂_congr fun d hd => (ImgDetection.back_iff h hfits ht hu (hdetected d hd)).symm
  rw [hrounds, RoundTrip, transformTo, hm]
  constructor
  · rintro ⟨there, back, hthere, hback, -, hrestored⟩
    obtain ⟨ds, hds, hthere⟩ := Loop.bind_eq_ok.1 hthere
    obtain rfl := Except.ok.inj hthere
    obtain ⟨ds', hds', hback⟩ := Loop.bind_eq_ok.1 hback
    obtain rfl := Except.ok.inj hback
    exact ⟨ds, ds', hds, hds', hrestored⟩
  · rintro ⟨ds, ds', hds, hds', hrestored⟩
    exact ⟨⟨ds, some u⟩, ⟨ds', some t⟩, Loop.bind_eq_ok.2 ⟨ds, hds, rfl⟩,
      Loop.bind_eq_ok.2 ⟨ds', hds', rfl⟩, rfl, hrestored⟩

end Messages
/-! ### In space -/

section Space

open ImgTransformation

variable [IsStrictOrderedRing K] {socket : CameraBoardSocket} {t u : ImgTransformation K}

omit [LinearOrder K] [IsStrictOrderedRing K] in
theorem Point3f.eq_of_extend {p p' : Point3f K} (h : extend p.coordinates = extend p'.coordinates) :
    p = p' := by
  obtain ⟨x, y, z⟩ := p
  obtain ⟨x', y', z'⟩ := p'
  have hx : x = x' := congrFun h 0
  have hy : y = y' := congrFun h 1
  have hz : z = z' := congrFun h 2
  rw [hx, hy, hz]

/-- What a motion makes of a point, by the last coordinate that it keeps. -/
theorem transformPoint3f_eq_ok_iff {M : Matrix4 K} (hM : Motion M) {p p' : Point3f K} :
    transformPoint3f M p = .ok p' ↔ M *ᵥ extend p.coordinates = extend p'.coordinates := by
  have hmoved : M *ᵥ extend p.coordinates = extend (linear M *ᵥ p.coordinates + shift M) := by
    conv_lhs => rw [hM, motion_mulVec_extend]
  rw [transformPoint3f_motion hM, hmoved]
  constructor
  · intro h
    rw [← Except.ok.inj h]
    rfl
  · intro h
    exact congrArg Except.ok (Point3f.eq_of_extend h)

/-- **The motions there and back** are inverses, in any unit. -/
theorem getExtrinsicsTransformationTo_back (ht : RelativeTo socket t) (hu : RelativeTo socket u)
    {unit : LengthUnit} {M N : Matrix4 K}
    (hM : t.extrinsics.getExtrinsicsTransformationTo u.extrinsics false unit = .ok M)
    (hN : u.extrinsics.getExtrinsicsTransformationTo t.extrinsics false unit = .ok N) :
    Motion M ∧ Motion N ∧ N * M = 1 := by
  have hauto : socket ≠ .AUTO := by
    rintro rfl
    rw [Extrinsics.getExtrinsicsTransformationTo, if_pos (.inl ht.toCameraSocket)] at hM
    cases hM
  have hunit : ∀ {v w : ImgTransformation K} {L : Matrix4 K}, RelativeTo socket v →
      RelativeTo socket w →
      v.extrinsics.getExtrinsicsTransformationTo w.extrinsics false unit = .ok L →
      L = scaleShift (getDistanceUnitScale unit .MILLIMETER) (reverse (pose w) * pose v) := by
    intro v w L hv hw hL
    have hmillimeter := getExtrinsicsTransformationTo_eq_relative hv hw hauto
    obtain ⟨failure, herror⟩ | ⟨L', -, hok⟩ :=
      v.extrinsics.getExtrinsicsTransformationTo_cases w.extrinsics false
    · rw [herror] at hL
      cases hL
    · rw [hok] at hL hmillimeter
      rw [← Except.ok.inj hL, ← Except.ok.inj hmillimeter, ← scaleShift_unit]
  have hrigid : ∀ {v : ImgTransformation K}, RelativeTo socket v → Rigid (pose v) := by
    intro v hv
    refine ⟨motion_isMotion _ _, ?_⟩
    rw [pose, linear_motion]
    exact (hv.orthonormal hauto).transpose_mul_self
  have hrelative : ∀ v w : ImgTransformation K, Motion (reverse (pose w) * pose v) := fun v w =>
    (reverse_isMotion _).mul (motion_isMotion _ _)
  obtain rfl := hunit ht hu hM
  obtain rfl := hunit hu ht hN
  refine ⟨(hrelative t u).scaleShift _, (hrelative u t).scaleShift _, ?_⟩
  rw [← (hrelative u t).scaleShift_mul (hrelative t u), Matrix.mul_assoc,
    ← Matrix.mul_assoc (pose u), (hrigid hu).mul_reverse, Matrix.one_mul, (hrigid ht).reverse_mul,
    scaleShift_one_right]

/-- **A point in space comes back.** -/
theorem transformPoint3f_back {M N : Matrix4 K} (hM : Motion M) (hN : Motion N) (hback : N * M = 1)
    {p p' p'' : Point3f K} (h : transformPoint3f M p = .ok p')
    (h' : transformPoint3f N p' = .ok p'') : p'' = p := by
  rw [transformPoint3f_eq_ok_iff hM] at h
  rw [transformPoint3f_eq_ok_iff hN, ← h, mulVec_mulVec, hback, one_mulVec] at h'
  exact (Point3f.eq_of_extend h').symm

/-! ### Keypoints in space -/

variable {num : Numerics K}

omit [IsStrictOrderedRing K] in
/-- **What becomes of a keypoint in space.** Its image coordinates are those of some point. With a
depth its coordinates in space move, and without one they stay. -/
theorem SpatialKeypointsList.transformed_spec {M : Matrix4 K} {depthScale : K}
    {fallback : Point3f K} {kp kp' : SpatialKeypoint K}
    (h : transformed num t u M depthScale fallback kp = .ok kp') :
    (∃ point, kp'.toKeypoint = kp.toKeypoint.setPoint point) ∧
      (0 < kp.spatialCoordinates.z →
        transformPoint3f M kp.spatialCoordinates = .ok kp'.spatialCoordinates) ∧
      (kp.spatialCoordinates.z ≤ 0 → kp'.spatialCoordinates = kp.spatialCoordinates) := by
  rcases le_or_gt kp.spatialCoordinates.z 0 with hz | hz
  · obtain ⟨point, -, rfl⟩ := transformed_eq_ok h hz
    exact ⟨⟨point, rfl⟩, fun hpos => absurd hz (not_le.2 hpos), fun _ => rfl⟩
  · obtain ⟨kp'', hkp, rfl⟩ := Loop.map_eq_ok.1 h
    rw [withFallback, if_neg (not_le.2 hz), SpatialKeypoint.transform, if_pos hz] at hkp
    rw [restore, if_neg (not_le.2 hz)]
    obtain ⟨point, -, hkp⟩ := Loop.bind_eq_ok.1 hkp
    obtain ⟨spatialCoordinates, hspatial, hkp⟩ := Loop.bind_eq_ok.1 hkp
    obtain rfl := Except.ok.inj hkp
    exact ⟨⟨point, rfl⟩, fun _ => hspatial, fun hle => absurd hle (not_le.2 hz)⟩

/-- What a keypoint is in space, and what it says. -/
def SpatialKeypoint.inSpace (self : SpatialKeypoint K) : Point3f K × K × ℕ × String :=
  (self.spatialCoordinates, self.confidence, self.label, self.labelName)

/-- What the list says, but for the image coordinates. -/
def SpatialKeypointsList.inSpace (self : SpatialKeypointsList K) :
    List (Point3f K × K × ℕ × String) × List (ℕ × ℕ) × LengthUnit :=
  (self.keypoints.map SpatialKeypoint.inSpace, self.edges, self.unit)

/-- A depth stays one. -/
def StaysInFront (p p' : Point3f K) : Prop :=
  0 < p.z → 0 < p'.z

/-- **A keypoint in space comes back.** -/
theorem SpatialKeypointsList.inSpace_back {M N : Matrix4 K} (hM : Motion M) (hN : Motion N)
    (hback : N * M = 1) {scale scale' : K} {fallback fallback' : Point3f K}
    {kp kp' kp'' : SpatialKeypoint K}
    (h : transformed num t u M scale fallback kp = .ok kp')
    (h' : transformed num u t N scale' fallback' kp' = .ok kp'')
    (hfront : StaysInFront kp.spatialCoordinates kp'.spatialCoordinates) :
    kp.inSpace = kp''.inSpace := by
  obtain ⟨⟨point, hpoint⟩, hmoves, hstays⟩ := transformed_spec h
  obtain ⟨⟨point', hpoint'⟩, hmoves', hstays'⟩ := transformed_spec h'
  have hspatial : kp''.spatialCoordinates = kp.spatialCoordinates := by
    rcases le_or_gt kp.spatialCoordinates.z 0 with hz | hz
    · rw [hstays' (by rw [hstays hz]; exact hz), hstays hz]
    · exact transformPoint3f_back hM hN hback (hmoves hz) (hmoves' (hfront hz))
  rw [SpatialKeypoint.inSpace, SpatialKeypoint.inSpace, hspatial, hpoint', hpoint]
  rfl

/-- **A list of keypoints in space comes back.** -/
theorem SpatialKeypointsList.list_back (ht : RelativeTo socket t) (hu : RelativeTo socket u)
    {list list' list'' : SpatialKeypointsList K} {fallback fallback' : Point3f K}
    (h : list.transformKeypointsFallback num t u fallback = .ok list')
    (h' : list'.transformKeypointsFallback num u t fallback' = .ok list'')
    (hfront : List.Forall₂ (fun kp kp' => StaysInFront kp.spatialCoordinates kp'.spatialCoordinates)
      list.keypoints list'.keypoints) : list''.inSpace = list.inSpace := by
  rw [transformKeypointsFallback_eq] at h h'
  obtain ⟨M, hM, h⟩ := Loop.bind_eq_ok.1 h
  obtain ⟨kps, hkps, rfl⟩ := Loop.map_eq_ok.1 h
  obtain ⟨N, hN, h'⟩ := Loop.bind_eq_ok.1 h'
  obtain ⟨kps', hkps', rfl⟩ := Loop.map_eq_ok.1 h'
  obtain ⟨hmotion, hmotion', hback⟩ := getExtrinsicsTransformationTo_back ht hu hM hN
  have hall := Loop.forall₂_of_mapM_mapM (fun kp kp' kp'' => inSpace_back hmotion hmotion' hback)
    hkps hkps' hfront
  have hmap : kps'.map SpatialKeypoint.inSpace = list.keypoints.map SpatialKeypoint.inSpace := by
    rw [← List.forall₂_eq_eq_eq, List.forall₂_map_left_iff, List.forall₂_map_right_iff]
    exact hall.flip.imp fun _ _ hsame => hsame.symm
  rw [inSpace, inSpace, hmap]

/-! ### Detections in space -/

namespace SpatialImgDetection

/-- **A detection in space is restored**: its coordinates, those of its keypoints, and what it and
they say. -/
structure Restored (before after : SpatialImgDetection K) : Prop where
  spatialCoordinates : after.spatialCoordinates = before.spatialCoordinates
  keypoints : after.keypoints.map (·.inSpace) = before.keypoints.map (·.inSpace)
  labels : after.label = before.label ∧ after.labelName = before.labelName ∧
    after.confidence = before.confidence

/-- All depths of the detection stay positive. -/
structure InFront (before after : SpatialImgDetection K) : Prop where
  detection : StaysInFront before.spatialCoordinates after.spatialCoordinates
  keypoints : ∀ list ∈ before.keypoints, ∀ list' ∈ after.keypoints,
    List.Forall₂ (fun kp kp' => StaysInFront kp.spatialCoordinates kp'.spatialCoordinates)
      list.keypoints list'.keypoints

theorem transformBox_spec {d d' : SpatialImgDetection K} {unit : LengthUnit}
    (h : d.transformBox num t u unit = .ok d') :
    (d'.label = d.label ∧ d'.labelName = d.labelName ∧ d'.confidence = d.confidence) ∧
      (0 < d.spatialCoordinates.z → ∃ M,
        t.extrinsics.getExtrinsicsTransformationTo u.extrinsics false unit = .ok M ∧
          transformPoint3f M d.spatialCoordinates = .ok d'.spatialCoordinates) := by
  rw [transformBox] at h
  obtain ⟨rect, -, h⟩ := Loop.bind_eq_ok.1 h
  simp only [mul_scale_pos_iff] at h
  split_ifs at h with hz
  · obtain ⟨M, hM, h⟩ := Loop.bind_eq_ok.1 h
    obtain ⟨boundingBox, -, h⟩ := Loop.bind_eq_ok.1 h
    obtain ⟨spatialCoordinates, hspatial, h⟩ := Loop.bind_eq_ok.1 h
    obtain rfl := Except.ok.inj h
    exact ⟨⟨rfl, rfl, rfl⟩, fun _ => ⟨M, hM, hspatial⟩⟩
  · obtain ⟨boundingBox, -, h⟩ := Loop.bind_eq_ok.1 h
    obtain rfl := Except.ok.inj h
    exact ⟨⟨rfl, rfl, rfl⟩, fun hpos => absurd hpos hz⟩

omit [IsStrictOrderedRing K] in
/-- **The two parts of a transformation.** -/
theorem transform_eq_ok {d d' : SpatialImgDetection K} {unit : LengthUnit}
    (h : d.transform num t u unit = .ok d') :
    ∃ box, d.transformBox num t u unit = .ok box ∧ d'.toDetectionBox = box.toDetectionBox ∧
      d'.spatialCoordinates = box.spatialCoordinates ∧
      (d.keypoints = none → d'.keypoints = none) ∧
      ∀ list, d.keypoints = some list → ∃ list' fallback, d'.keypoints = some list' ∧
        list.transformKeypointsFallback num t u fallback = .ok list' := by
  rw [transform] at h
  obtain ⟨box, hbox, h⟩ := Loop.bind_eq_ok.1 h
  cases hkeypoints : d.keypoints with
  | none =>
    rw [hkeypoints] at h
    obtain rfl := Except.ok.inj h
    exact ⟨box, hbox, rfl, rfl, fun _ => (transformBox_keypoints hbox).trans hkeypoints,
      fun _ hlist => by cases hlist⟩
  | some list =>
    rw [hkeypoints] at h
    obtain ⟨list', hlist', h⟩ := Loop.bind_eq_ok.1 h
    obtain rfl := Except.ok.inj h
    refine ⟨box, hbox, rfl, rfl, fun hnone => absurd hnone (by simp), fun list₁ h₁ => ?_⟩
    obtain rfl := Option.some.inj h₁
    exact ⟨list', _, rfl, hlist'⟩

/-- **A detection in space comes back.** -/
theorem back (ht : RelativeTo socket t) (hu : RelativeTo socket u)
    {d d' d'' : SpatialImgDetection K} {unit : LengthUnit} (h : d.transform num t u unit = .ok d')
    (h' : d'.transform num u t unit = .ok d'') (hfront : InFront d d') : Restored d d'' := by
  obtain ⟨box, hbox, hd', hspatial, hnone, hsome⟩ := transform_eq_ok h
  obtain ⟨box', hbox', hd'', hspatial', hnone', hsome'⟩ := transform_eq_ok h'
  obtain ⟨hlabels, hmoves⟩ := transformBox_spec hbox
  obtain ⟨hlabels', hmoves'⟩ := transformBox_spec hbox'
  refine ⟨?_, ?_, ?_⟩
  · rw [hspatial']
    rcases le_or_gt d.spatialCoordinates.z 0 with hz | hz
    · have hstays := hspatial.trans (transformBox_spatialCoordinates hz hbox)
      rw [transformBox_spatialCoordinates (by rw [hstays]; exact hz) hbox', hstays]
    · obtain ⟨M, hM, hgo⟩ := hmoves hz
      obtain ⟨N, hN, hgo'⟩ := hmoves' (hfront.detection hz)
      obtain ⟨hmotion, hmotion', hback⟩ := getExtrinsicsTransformationTo_back ht hu hM hN
      rw [← hspatial] at hgo
      exact transformPoint3f_back hmotion hmotion' hback hgo hgo'
  · cases hkeypoints : d.keypoints with
    | none => rw [hnone' (hnone hkeypoints)]
    | some list =>
      obtain ⟨list', fallback, hlist', hgo⟩ := hsome list hkeypoints
      obtain ⟨list'', fallback', hlist'', hgo'⟩ := hsome' list' hlist'
      have hlists := hfront.keypoints list hkeypoints list' hlist'
      rw [hlist'', Option.map_some, Option.map_some,
        SpatialKeypointsList.list_back ht hu hgo hgo' hlists]
  · rw [hd'] at hlabels'
    rw [hd'']
    exact ⟨hlabels'.1.trans hlabels.1, hlabels'.2.1.trans hlabels.2.1,
      hlabels'.2.2.trans hlabels.2.2⟩

end SpatialImgDetection

/-- **The coordinates in space come back.** -/
theorem SpatialImgDetections.back (ht : RelativeTo socket t) (hu : RelativeTo socket u)
    {m there back : SpatialImgDetections K} (hm : m.transformation = some t)
    (hthere : m.transformTo num u = .ok there) (hback : there.transformTo num t = .ok back)
    (hfront : List.Forall₂ SpatialImgDetection.InFront m.detections there.detections) :
    List.Forall₂ SpatialImgDetection.Restored m.detections back.detections := by
  rw [transformTo, hm] at hthere
  obtain ⟨ds, hds, hthere⟩ := Loop.bind_eq_ok.1 hthere
  obtain rfl := Except.ok.inj hthere
  obtain ⟨ds', hds', hback⟩ := Loop.bind_eq_ok.1 hback
  obtain rfl := Except.ok.inj hback
  exact Loop.forall₂_of_mapM_mapM (fun d d' d'' => SpatialImgDetection.back ht hu) hds hds' hfront

end Space

/-! ### The laws -/

section Laws

open ImgTransformation

variable [IsStrictOrderedRing K] {num : Numerics K} {socket : CameraBoardSocket}
  {t u : ImgTransformation K}

/-- On a square frame every box is the rectangle around its own corners. -/
theorem ImgTransformation.refits_of_square (hfits : FitsRectangles num) (hsize : t.HasSize)
    (hsquare : t.width = t.height) (rect : RotatedRect K) : Refits num t rect := by
  have hscaled : ∀ (r : RotatedRect K) (s : K) (n : Bool),
      (r.scaledBy s s n).corners num.toTrigonometry =
        (r.corners num.toTrigonometry).map fun q => (q.1 * s, q.2 * s) := by
    intro r s n
    simp only [RotatedRect.corners, RotatedRect.getPoints, RotatedRect.scaledBy, List.map_cons,
      List.map_nil, Point2f.coordinates, List.cons.injEq, Prod.mk.injEq, and_true]
    refine ⟨⟨?_, ?_⟩, ⟨?_, ?_⟩, ⟨?_, ?_⟩, ?_, ?_⟩ <;> ring
  have hpixels : t.pixelCorners num true rect =
      (rect.corners num.toTrigonometry).map
        fun q => (q.1 * (t.width : K), q.2 * (t.width : K)) := by
    rw [← hscaled rect _ false]
    refine RotatedRect.corners_of_place ?_
    rw [pixelRect, if_pos rfl, hsquare]
  have hperm : ((num.getOuterRotatedRect (t.pixelCorners num true rect)).corners
      num.toTrigonometry).Perm (t.pixelCorners num true rect) := hfits.corners _
  rw [Refits, fractions, ← hsquare, hscaled]
  refine (hperm.map _).trans (.of_eq ?_)
  rw [hpixels, List.map_map]
  refine (List.map_congr_left fun q _ => ?_).trans (List.map_id _)
  simp [mul_inv_cancel_right₀ hsize.1]

/-- **There and back.** Both frames are valid and no lens distorts; boxes and keypoints have places
in the other frame and ways back; boxes go to rectangles, and nothing of them is taken for what it
is not. Then a message comes back exactly if every keypoint is read on the way back as it was meant,
and every box is the rectangle around its own corners by fractions as well. Coordinates in space
come back wherever both calls return and the depths stay positive. -/
theorem ImgDetections.roundTrip_iff (h : Pair socket t u) (hfits : FitsRectangles num) (ht : t.FitsUnsigned)
    (hu : u.FitsUnsigned) :
    (∀ m : ImgDetections K, m.transformation = some t →
      (∀ d ∈ m.detections, Detected num t u d) →
        (m.RoundTrip num t u ↔ ∀ d ∈ m.detections, ComesBack num t u d)) ∧
    (∀ m there back : SpatialImgDetections K, m.transformation = some t →
      m.transformTo num u = .ok there → there.transformTo num t = .ok back →
      List.Forall₂ SpatialImgDetection.InFront m.detections there.detections →
        List.Forall₂ SpatialImgDetection.Restored m.detections back.detections) :=
  ⟨fun _ hm hdetected => back_iff h hfits ht hu hm hdetected,
    fun _ _ _ hm hthere hback hfront => SpatialImgDetections.back h.left.relativeTo
      h.right.relativeTo hm hthere hback hfront⟩

end Laws

/-! ### Messages that go to a part of the frame -/

namespace ImgTransformation

theorem corners_sampleNumerics (rect : RotatedRect ℚ) :
    rect.corners sampleNumerics.toTrigonometry =
      [(rect.center.x - rect.size.width / 2, rect.center.y - rect.size.height / 2),
        (rect.center.x + rect.size.width / 2, rect.center.y - rect.size.height / 2),
        (rect.center.x + rect.size.width / 2, rect.center.y + rect.size.height / 2),
        (rect.center.x - rect.size.width / 2, rect.center.y + rect.size.height / 2)] := by
  simp only [RotatedRect.corners, RotatedRect.getPoints, sampleNumerics, Point2f.coordinates,
    List.map_cons, List.map_nil, List.cons.injEq, Prod.mk.injEq, and_true]
  refine ⟨⟨?_, ?_⟩, ⟨?_, ?_⟩, ⟨?_, ?_⟩, ?_, ?_⟩ <;> ring

/-- What is fitted around them has sizes that are not negative. -/
theorem fit_sampleNumerics (x y a b : ℚ) :
    sampleNumerics.getOuterRotatedRect [(x - a, y - b), (x + a, y - b), (x + a, y + b),
      (x - a, y + b)] = ⟨{ x := x, y := y }, { width := |a| + |a|, height := |b| + |b| }, 0⟩ := by
  have hmin : ∀ x a : ℚ, min (x - a) (x + a) = x - |a| := by
    intro x a
    rcases le_total 0 a with ha | ha
    · rw [abs_of_nonneg ha, min_eq_left (by linarith)]
    · rw [abs_of_nonpos ha, min_eq_right (by linarith), sub_neg_eq_add]
  have hmax : ∀ x a : ℚ, max (x - a) (x + a) = x + |a| := by
    intro x a
    rcases le_total 0 a with ha | ha
    · rw [abs_of_nonneg ha, max_eq_right (by linarith)]
    · rw [abs_of_nonpos ha, max_eq_left (by linarith), sub_eq_add_neg]
  have hx : min (min (min (min (x - a) (x - a)) (x + a)) (x + a)) (x - a) = x - |a| ∧
      max (max (max (max (x - a) (x - a)) (x + a)) (x + a)) (x - a) = x + |a| := by
    simp [hmin, hmax, min_assoc, max_assoc, min_comm (x + a), max_comm (x + a)]
  have hy : min (min (min (min (y - b) (y - b)) (y - b)) (y + b)) (y + b) = y - |b| ∧
      max (max (max (max (y - b) (y - b)) (y - b)) (y + b)) (y + b) = y + |b| := by
    rw [min_self, min_self, min_assoc, min_self, hmin, max_self, max_self, max_assoc, max_self,
      hmax]
    exact ⟨rfl, rfl⟩
  simp only [sampleNumerics, List.map_cons, List.map_nil, List.headD_cons, List.foldl_cons,
    List.foldl_nil, hx, hy]
  congr 2 <;> ring

theorem fits_sampleNumerics : FitsRectangles sampleNumerics := by
  have hmin : ∀ l : List ℚ, l.foldl min (l.headD 0) = l.min?.getD 0 := by
    intro l
    cases l with
    | nil => rfl
    | cons x l => rw [List.headD_cons, List.foldl_cons, min_self, List.min?_cons', Option.getD_some]
  have hmax : ∀ l : List ℚ, l.foldl max (l.headD 0) = l.max?.getD 0 := by
    intro l
    cases l with
    | nil => rfl
    | cons x l => rw [List.headD_cons, List.foldl_cons, max_self, List.max?_cons', Option.getD_some]
  refine ⟨fun _ => ⟨rfl, rfl⟩, fun hperm => ?_, fun rect => ?_⟩
  · simp only [sampleNumerics, hmin, hmax, OrderStatistics.min?_eq_of_perm (hperm.map Prod.fst),
      OrderStatistics.min?_eq_of_perm (hperm.map Prod.snd),
      OrderStatistics.max?_eq_of_perm (hperm.map Prod.fst),
      OrderStatistics.max?_eq_of_perm (hperm.map Prod.snd)]
  · rw [corners_sampleNumerics rect, fit_sampleNumerics, corners_sampleNumerics]
    dsimp only
    rw [add_self_div_two, add_self_div_two]
    rcases le_total 0 (rect.size.width / 2) with ha | ha <;>
      rcases le_total 0 (rect.size.height / 2) with hb | hb
    · rw [abs_of_nonneg ha, abs_of_nonneg hb]
    · rw [abs_of_nonneg ha, abs_of_nonpos hb, sub_neg_eq_add, ← sub_eq_add_neg]
      exact List.reverse_perm [_, _, _, _]
    · rw [abs_of_nonpos ha, abs_of_nonneg hb, sub_neg_eq_add, ← sub_eq_add_neg]
      exact (List.Perm.swap _ _ _).trans (.cons _ (.cons _ (.swap _ _ _)))
    · rw [abs_of_nonpos ha, abs_of_nonpos hb, sub_neg_eq_add, sub_neg_eq_add, ← sub_eq_add_neg,
        ← sub_eq_add_neg]
      exact @List.perm_append_comm _ [_, _] [_, _]

theorem not_isEqualTransformation_leftFrame : ¬croppedCamera.isEqualTransformation leftFrame := by
  decide +kernel

theorem pair_croppedCamera : Pair .CAM_A leftFrame croppedCamera :=
  ⟨remapping_leftFrame, remapping_croppedCamera,
    fun heq => absurd heq not_isEqualTransformation_croppedCamera,
    fun heq => absurd heq not_isEqualTransformation_leftFrame, by decide +kernel, by decide +kernel⟩

theorem bothWays_of_isSome {socket : CameraBoardSocket} {t u : ImgTransformation ℚ}
    (h : Pair socket t u) {q : ℚ × ℚ}
    (hq : (t.remapPointTo sampleNumerics u ⟨q.1, q.2, false, true⟩ >>= fun r =>
      u.remapPointTo sampleNumerics t ⟨r.x, r.y, false, true⟩).toOption.isSome) :
    BothWays t u q := by
  have hback := eq_ok_returned hq
  obtain ⟨r, hr, hback⟩ := Loop.bind_eq_ok.1 hback
  obtain ⟨hclear, rfl⟩ := remapPointTo_eq_ok h hr
  exact ⟨hclear, (remapPointTo_eq_ok h.symm hback).1⟩

end ImgTransformation

/-- A message with a box and a keypoint, both by fractions. -/
def boxAndKeypoint (x y : ℚ) : ImgDetections ℚ where
  detections := [{
    label := 3, labelName := "cat", confidence := 1 / 2
    xmin := 3 / 10, ymin := 3 / 10, xmax := 1 / 2, ymax := 1 / 2
    boundingBox := some ⟨⟨2 / 5, 2 / 5, true, true⟩, ⟨1 / 5, 1 / 5, true, true⟩, 0⟩
    keypoints := some { keypoints := [⟨⟨x, y, 0⟩, 1, 0, "nose"⟩], edges := [] } }]
  transformation := some ImgTransformation.leftFrame

open ImgTransformation in
theorem boxed_boxAndKeypoint : Boxed sampleNumerics leftFrame croppedCamera
    ⟨⟨2 / 5, 2 / 5, true, true⟩, ⟨1 / 5, 1 / 5, true, true⟩, 0⟩ := by
  have hgo : ∀ q ∈ leftFrame.pixelCorners sampleNumerics true
      ⟨⟨2 / 5, 2 / 5, true, true⟩, ⟨1 / 5, 1 / 5, true, true⟩, 0⟩,
      (leftFrame.remapPointTo sampleNumerics croppedCamera ⟨q.1, q.2, false, true⟩ >>= fun r =>
        croppedCamera.remapPointTo sampleNumerics leftFrame
          ⟨r.x, r.y, false, true⟩).toOption.isSome := by
    decide +kernel
  exact ⟨by decide +kernel, fun q hq => bothWays_of_isSome pair_croppedCamera (hgo q hq),
    ⟨⟨{ x := 30, y := 30 }, { width := 20, height := 20 }, 0⟩, by decide +kernel⟩,
    ⟨by decide +kernel, by decide +kernel, by decide +kernel⟩,
    ⟨by decide +kernel, by decide +kernel, by decide +kernel⟩⟩

open ImgTransformation in
theorem detected_boxAndKeypoint {x y : ℚ}
    (h : BothWays leftFrame croppedCamera (leftFrame.pixel { x := x, y := y })) :
    ∀ d ∈ (boxAndKeypoint x y).detections, Detected sampleNumerics leftFrame croppedCamera d := by
  intro d hd
  obtain rfl := List.mem_singleton.1 hd
  refine ⟨⟨_, rfl, boxed_boxAndKeypoint⟩, fun list hlist kp hkp => ?_⟩
  obtain rfl := Option.some.inj hlist
  obtain rfl := List.mem_singleton.1 hkp
  exact h

/-- A message in space with one depth. -/
def boxInSpace : SpatialImgDetections ℚ where
  detections := [{
    label := 3, labelName := "cat", confidence := 1 / 2
    xmin := 3 / 10, ymin := 3 / 10, xmax := 1 / 2, ymax := 1 / 2
    boundingBox := some ⟨⟨2 / 5, 2 / 5, true, true⟩, ⟨1 / 5, 1 / 5, true, true⟩, 0⟩
    keypoints := none
    spatialCoordinates := ⟨-1 / 5, -1 / 5, 1⟩ }]
  transformation := some ImgTransformation.leftFrame
  unit := .METER

/-- Its detection at the part of the frame. -/
def boxInPart : SpatialImgDetection ℚ where
  label := 3
  labelName := "cat"
  confidence := 1 / 2
  xmin := 2 / 5
  ymin := 2 / 5
  xmax := 4 / 5
  ymax := 4 / 5
  boundingBox := some ⟨⟨3 / 5, 3 / 5, true, true⟩, ⟨2 / 5, 2 / 5, true, true⟩, 0⟩
  keypoints := none
  spatialCoordinates := ⟨-1 / 5, -1 / 5, 1⟩

open ImgTransformation in
/-- Within the part of the frame a box and a keypoint come back, and so do coordinates in space. -/
theorem roundTrip_iff_boxAndKeypoint :
    (boxAndKeypoint (3 / 10) (2 / 5)).RoundTrip sampleNumerics leftFrame croppedCamera ∧
    ∃ there back, boxInSpace.transformTo sampleNumerics croppedCamera = .ok there ∧
      there.transformTo sampleNumerics leftFrame = .ok back ∧
      List.Forall₂ SpatialImgDetection.Restored boxInSpace.detections back.detections := by
  have hboth := @ImgDetections.roundTrip_iff ℚ _ _ _ sampleNumerics _ _ _ pair_croppedCamera
    fits_sampleNumerics ⟨by decide +kernel, by decide +kernel⟩
      ⟨by decide +kernel, by decide +kernel⟩
  have hkeypoint : BothWays leftFrame croppedCamera
      (leftFrame.pixel { x := 3 / 10, y := 2 / 5 }) :=
    bothWays_of_isSome pair_croppedCamera (by decide +kernel)
  refine ⟨(hboth.1 (boxAndKeypoint (3 / 10) (2 / 5)) rfl (detected_boxAndKeypoint hkeypoint)).2
    fun d hd => ?_, ?_⟩
  · obtain rfl := List.mem_singleton.1 hd
    refine ⟨fun rect hrect => ?_, fun list hlist kp hkp => ?_⟩
    · exact refits_of_square fits_sampleNumerics (hasSize_of_isValid pair_croppedCamera.valid)
        (by decide +kernel) rect
    · obtain rfl := Option.some.inj hlist
      obtain rfl := List.mem_singleton.1 hkp
      exact .inl (by decide +kernel)
  · have hthere : boxInSpace.detections.mapM (SpatialImgDetection.transform sampleNumerics ·
        leftFrame croppedCamera .METER) = .ok [boxInPart] := by decide +kernel
    have hback : [boxInPart].mapM (SpatialImgDetection.transform sampleNumerics · croppedCamera
        leftFrame .METER) = .ok boxInSpace.detections := by decide +kernel
    refine ⟨⟨[boxInPart], some croppedCamera, .METER⟩, boxInSpace,
      Loop.bind_eq_ok.2 ⟨_, hthere, rfl⟩, Loop.bind_eq_ok.2 ⟨_, hback, rfl⟩, ?_⟩
    refine hboth.2 boxInSpace ⟨[boxInPart], some croppedCamera, .METER⟩ boxInSpace rfl
      (Loop.bind_eq_ok.2 ⟨_, hthere, rfl⟩) (Loop.bind_eq_ok.2 ⟨_, hback, rfl⟩)
      (.cons ⟨fun _ => by decide +kernel, fun list hlist => ?_⟩ .nil)
    exact absurd hlist (Option.not_mem_none _)

open ImgTransformation in
/-- **A keypoint that leaves the frame.** It is by fractions, its place is beyond the other frame,
and the way back takes the fractions for a pixel. -/
theorem not_roundTrip :
    (Pair .CAM_A leftFrame croppedCamera ∧ FitsRectangles sampleNumerics ∧
      leftFrame.FitsUnsigned ∧ croppedCamera.FitsUnsigned ∧
      ∀ d ∈ (boxAndKeypoint (4 / 5) (4 / 5)).detections,
        Detected sampleNumerics leftFrame croppedCamera d) ∧
    ¬(boxAndKeypoint (4 / 5) (4 / 5)).RoundTrip sampleNumerics leftFrame croppedCamera ∧
    leftFrame.remapPointTo sampleNumerics croppedCamera { x := 4 / 5, y := 4 / 5 } =
      .ok ⟨7 / 5, 7 / 5, true, true⟩ ∧
    croppedCamera.remapPointTo sampleNumerics leftFrame { x := 7 / 5, y := 7 / 5 } =
      .ok { x := 57 / 5, y := 57 / 5 } := by
  have hleft : leftFrame.FitsUnsigned := ⟨by decide +kernel, by decide +kernel⟩
  have hright : croppedCamera.FitsUnsigned := ⟨by decide +kernel, by decide +kernel⟩
  have hdetected := detected_boxAndKeypoint (x := 4 / 5) (y := 4 / 5)
    (bothWays_of_isSome pair_croppedCamera (by decide +kernel))
  refine ⟨⟨pair_croppedCamera, fits_sampleNumerics, hleft, hright, hdetected⟩, fun hround => ?_,
    by decide +kernel, by decide +kernel⟩
  have hcomes := (ImgDetections.back_iff pair_croppedCamera fits_sampleNumerics hleft hright rfl
    hdetected).1 hround _ (List.mem_singleton.2 rfl)
  obtain hread | ⟨-, hplace⟩ := hcomes.keypoints _ rfl _ (List.mem_singleton.2 rfl)
  · exact absurd hread (by decide +kernel)
  · exact absurd hplace (by decide +kernel)

end DepthaiCore
