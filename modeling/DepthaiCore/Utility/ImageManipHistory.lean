import DepthaiCore.Lib.Loops
import DepthaiCore.Lib.Runs
import DepthaiCore.Utility.ImageManip

/-!
# The builds of one image manipulation

When an object is built again, it should be as if it had been constructed for this build. It is not,
for four reasons. The bits of `mode` and the flag `convertInput` are set and never reset. The type of
output of a call that names none depends on the colormap of the call before. And a call that looks
like the one before returns at once, though the text of a configuration does not tell all of them
apart, and strides and offsets are not looked at.
-/

namespace DepthaiCore.ImageManip

variable {F M : Type} {backend : Backend} {K : Geometry F M}

namespace ImageManipOperations

variable {s s' t t' : ImageManipOperations F M} {c : BuildCall F}

/-! ### Objects that cannot be told apart -/

/-- An object that has never been asked to warp. -/
def Sane (K : Geometry F M) (s : ImageManipOperations F M) : Prop :=
  s.mode.warp = false → s.matrix = K.identity ∧ s.matrixInv = K.identity ∧ s.srcCorners = [] ∧
    s.warpEngine = none ∧ s.clrChange = none

/-- What a build reads of the object that it has configured is the same. -/
structure Alike (s t : ImageManipOperations F M) : Prop where
  base : s.base = t.base
  outputFrameType : s.outputFrameType = t.outputFrameType
  inType : s.inType = t.inType
  type : s.type = t.type
  srcSpecs : s.srcSpecs = t.srcSpecs
  mode : s.mode = t.mode
  convertInput : s.convertInput = t.convertInput
  preprocCc : s.convertInput = true ∨ s.mode = .CONVERT → s.preprocCc = t.preprocCc

/-- **The objects are the same, but for what neither `apply` nor its callers look at.** -/
structure Agrees (s t : ImageManipOperations F M) : Prop extends Alike s t where
  matrix : s.matrix = t.matrix
  matrixInv : s.matrixInv = t.matrixInv
  srcCorners : s.srcCorners = t.srcCorners
  warpEngine : s.warpEngine = t.warpEngine
  clrChange : s.clrChange = t.clrChange

@[simp] theorem raise_ok {α : Type} (a : α) : s.raise (.ok a) = .ok a :=
  rfl

@[simp] theorem raise_error {α : Type} (e : String) :
    s.raise (.error e : Except String α) = .error (s, e) :=
  rfl

theorem raise_eq_ok {α : Type} {x : Except String α} {a : α} : s.raise x = .ok a ↔ x = .ok a :=
  Loop.mapError_eq_ok

theorem Agrees.apply_eq (h : s.Agrees t) (srcSize : ℕ) : s.apply srcSize = t.apply srcSize := by
  obtain ⟨⟨hbase, hout, hin, htype, hspecs, hmode, hconvert, hcc⟩, -, -, -, hwarp, hclr⟩ := h
  have hcolormap : s.applyColormap = t.applyColormap := by
    simp only [applyColormap, getOutputFrameSpecs, hbase, hout, hspecs, hmode, hconvert]
  rw [apply, apply, hcolormap, hbase, hout, hin, htype, hspecs, hmode, hwarp, hclr]
  split
  · rfl
  split
  · rfl
  split
  · rename_i hsole
    rw [hcc (.inr (hmode.trans hsole))]
  · by_cases hconverts : s.convertInput = true
    · rw [hcc (.inl hconverts), hconvert]
    · have hfalse : t.convertInput = false := by simpa [hconvert] using hconverts
      rw [hconvert, hfalse]
      rfl

/-! ### One build -/

/-- A configured object `s`, and another one `t` that has never converted: either the flags of `s` are
those of `t`, or the input of both is converted to a type that is supported, which sets the flags. -/
structure Ready (backend : Backend) (s t : ImageManipOperations F M) : Prop where
  base : s.base = t.base
  outputFrameType : s.outputFrameType = t.outputFrameType
  inType : s.inType = t.inType
  type : s.type = t.type
  srcSpecs : s.srcSpecs = t.srcSpecs
  convertInput : t.convertInput = false
  flags : s.mode = t.mode ∧ s.convertInput = false ∨
    isTypeSupported backend s.inType = false ∧ s.mode.warp = true ∧ t.mode.warp = true ∧
      s.mode.colormap = t.mode.colormap

theorem zero_or (m : Mode) : Mode.zero.or m = m := by
  simp [Mode.or, Mode.zero]

theorem or_warp {m m' : Mode} (h : m'.warp = true) : (m.or m').warp = true := by
  simp [Mode.or, h]

theorem mode_ne_CONVERT {m : Mode} (h : m.warp = true) : m ≠ .CONVERT := by
  rintro rfl
  cases h

theorem Ready.preprocess (hready : Ready backend s t) (h : s.preprocess backend = .ok s') :
    ∃ t', t.preprocess backend = .ok t' ∧ s'.Alike t' := by
  obtain ⟨hbase, hout, hin, htype, hspecs, hfresh, hflags⟩ := hready
  rw [ImageManipOperations.preprocess] at h ⊢
  rw [← hin, ← hspecs, ← hout]
  by_cases hsole : s.mode = .CONVERT
  · rcases hflags with ⟨hmode, hconvert⟩ | ⟨-, hwarp, -⟩
    · rw [if_pos hsole] at h
      rw [if_pos (hmode ▸ hsole)]
      obtain ⟨specs, hcc, h⟩ := Loop.bind_eq_ok.1 h
      rw [raise_eq_ok.1 hcc]
      cases h
      exact ⟨_, rfl, hbase, rfl, rfl, htype, rfl, hmode, hconvert.trans hfresh.symm, fun _ => rfl⟩
    · exact absurd hsole (mode_ne_CONVERT hwarp)
  · have hsole' : t.mode ≠ .CONVERT := by
      rcases hflags with ⟨hmode, -⟩ | ⟨-, -, hwarp, -⟩
      · exact hmode ▸ hsole
      · exact mode_ne_CONVERT hwarp
    rw [if_neg hsole] at h
    rw [if_neg hsole']
    by_cases hsupported : isTypeSupported backend s.inType = true
    · rw [if_neg (by simp [hsupported])] at h
      rw [if_neg (by simp [hsupported])]
      obtain ⟨hmode, hconvert⟩ := hflags.resolve_right fun hflags => by simp [hflags.1] at hsupported
      cases h
      refine ⟨t, rfl, hbase, hout, hin, htype, hspecs, hmode, hconvert.trans hfresh.symm, ?_⟩
      rintro (hconvert' | hsole')
      · simp [hconvert] at hconvert'
      · exact absurd hsole' hsole
    · rw [if_pos (by simp [hsupported])] at h
      rw [if_pos (by simp [hsupported])]
      obtain ⟨specs, hcc, h⟩ := Loop.bind_eq_ok.1 h
      simp only [raise_eq_ok.1 hcc]
      cases h
      refine ⟨_, rfl, hbase, rfl, rfl, rfl, rfl, ?_, rfl, fun _ => rfl⟩
      have hbits : s.mode.colormap = t.mode.colormap ∧ s.mode.warp = t.mode.warp := by
        rcases hflags with ⟨hmode, -⟩ | ⟨-, hwarp, hwarp', hcolormap⟩
        · rw [hmode]
          exact ⟨rfl, rfl⟩
        · exact ⟨hcolormap, hwarp.trans hwarp'.symm⟩
      simp only [hbits]

/-- The rest of a build does the same with objects that are alike. -/
theorem Alike.transform (halike : s.Alike t) (hs : s.Sane K) (ht : t.Sane K)
    (h : s.transform K = .ok s') : ∃ t', t.transform K = .ok t' ∧ s'.Agrees t' := by
  obtain ⟨hbase, hout, hin, htype, hspecs, hmode, hconvert, hcc⟩ := halike
  rw [ImageManipOperations.transform] at h ⊢
  simp only [← hbase, ← hout, ← htype, ← hspecs, ← hmode] at h ⊢
  by_cases hwarp : s.mode.warp = true
  · rw [if_pos hwarp] at h ⊢
    obtain ⟨full, hfull, h⟩ := Loop.bind_eq_ok.1 h
    obtain ⟨matrixInv, hinv, h⟩ := Loop.bind_eq_ok.1 h
    obtain ⟨dstSpecs, hdst, h⟩ := Loop.bind_eq_ok.1 h
    obtain ⟨warped, hbuild, h⟩ := Loop.bind_eq_ok.1 h
    have hdst' := raise_eq_ok.1 hdst
    rw [getOutputFrameSpecs] at hdst'
    rw [buildWarp] at hbuild
    split at hbuild
    · cases hbuild
    rename_i hbounds
    cases hbuild
    obtain ⟨ccSrcSpecs, hsrc, h⟩ := Loop.bind_eq_ok.1 h
    obtain ⟨ccDstSpecs, hccdst, h⟩ := Loop.bind_eq_ok.1 h
    have hsrc' := raise_eq_ok.1 hsrc
    have hccdst' := raise_eq_ok.1 hccdst
    rw [getOutputFrameSpecs] at hsrc' hccdst'
    cases h
    simp only [raise_eq_ok.1 hfull, raise_ok, Loop.ok_bind, raise_eq_ok.1 hinv, getOutputFrameSpecs,
      buildWarp]
    rw [hdst']
    simp only [raise_ok, Loop.ok_bind]
    rw [if_neg hbounds]
    simp only [Loop.ok_bind]
    rw [hsrc']
    simp only [raise_ok, Loop.ok_bind]
    rw [hccdst']
    simp only [raise_ok, Loop.ok_bind]
    exact ⟨_, rfl, ⟨rfl, rfl, hin, rfl, rfl, rfl, hconvert, hcc⟩, rfl, rfl, rfl, rfl, rfl⟩
  · rw [if_neg hwarp] at h ⊢
    cases h
    obtain ⟨-, hinv, hcorners, hengine, hclr⟩ := hs (by simpa using hwarp)
    obtain ⟨-, hinv', hcorners', hengine', hclr'⟩ := ht (by simpa [← hmode] using hwarp)
    exact ⟨_, rfl, ⟨rfl, rfl, hin, rfl, rfl, rfl, hconvert, hcc⟩, rfl, hinv.trans hinv'.symm,
      hcorners.trans hcorners'.symm, hengine.trans hengine'.symm, hclr.trans hclr'.symm⟩

/-! ### What a build keeps -/

/-- A step of a build keeps the types that were asked for, and does not touch what belongs to a warp
unless it warps. -/
structure Kept (K : Geometry F M) (s s' : ImageManipOperations F M) : Prop where
  outputFrameType : s'.outputFrameType = s.outputFrameType
  inType : s'.inType = s.inType
  sane : s.Sane K → s'.Sane K

theorem Kept.refl : s.Kept K s :=
  ⟨rfl, rfl, id⟩

theorem Kept.trans (h : s.Kept K s') (h' : s'.Kept K t) : s.Kept K t :=
  ⟨h'.outputFrameType.trans h.outputFrameType, h'.inType.trans h.inType, h'.sane ∘ h.sane⟩

theorem sane_of_warp (h : s.mode.warp = true) : s.Sane K := by
  intro hfalse
  rw [h] at hfalse
  cases hfalse

theorem post_raise {α : Type} {x : Except String α} {E : ImageManipOperations F M × String → Prop}
    (hE : ∀ e, E (s, e)) : Loop.Post (fun _ => True) E (s.raise x) := by
  cases x with
  | error e => exact hE e
  | ok a => trivial

theorem post_preprocess :
    Loop.Post (s.Kept K) (fun p => s.Kept K p.1) (s.preprocess backend) := by
  rw [preprocess]
  split
  · exact (post_raise fun _ => .refl).bind fun _ _ => ⟨rfl, rfl, id⟩
  split
  · exact (post_raise fun _ => .refl).bind fun _ _ => ⟨rfl, rfl, id⟩
  · exact .refl

theorem post_transform : Loop.Post (s.Kept K) (fun p => s.Kept K p.1) (s.transform K) := by
  rw [transform]
  by_cases hwarp : s.mode.warp = true
  · -- Every object on the way has the bit for a warp.
    have hkept : ∀ s' : ImageManipOperations F M, s'.mode = s.mode →
        s'.outputFrameType = s.outputFrameType → s'.inType = s.inType → s.Kept K s' :=
      fun s' hmode hout hin => ⟨hout, hin, fun _ => sane_of_warp (hmode ▸ hwarp)⟩
    rw [if_pos hwarp]
    refine (post_raise fun _ => hkept _ (by rfl) (by rfl) (by rfl)).bind fun full _ => ?_
    refine (post_raise fun _ => hkept _ (by rfl) (by rfl) (by rfl)).bind fun matrixInv _ => ?_
    refine (post_raise fun _ => hkept _ (by rfl) (by rfl) (by rfl)).bind fun dstSpecs _ => ?_
    refine Loop.Post.bind (I := fun s' => s'.mode = s.mode ∧ s'.outputFrameType = s.outputFrameType ∧
      s'.inType = s.inType) ?_ ?_
    · rw [buildWarp]
      split
      · exact hkept _ (by rfl) (by rfl) (by rfl)
      · exact ⟨rfl, rfl, rfl⟩
    · rintro s' ⟨hmode, hout, hin⟩
      refine (post_raise fun _ => hkept _ (by exact hmode) (by exact hout) (by exact hin)).bind fun srcSpecs _ => ?_
      refine (post_raise fun _ => hkept _ (by exact hmode) (by exact hout) (by exact hin)).bind fun dstSpecs _ => ?_
      exact hkept _ (by exact hmode) (by exact hout) (by exact hin)
  · rw [if_neg hwarp]
    exact ⟨rfl, rfl, fun hsane hfalse => ⟨rfl, (hsane hfalse).2⟩⟩

theorem post_rebuild (s : ImageManipOperations F M) : Loop.Post (s.Kept K) (fun p => s.Kept K p.1) (s.rebuild backend K) := by
  rw [rebuild]
  split
  · exact .refl
  · refine Loop.Post.bind post_preprocess fun s₁ h₁ => ?_
    have hrest : Loop.Post (s₁.Kept K) (fun p => s₁.Kept K p.1) (s₁.transform K) := post_transform
    cases htransform : s₁.transform K with
    | error p =>
      rw [htransform] at hrest
      exact h₁.trans hrest
    | ok s₂ =>
      rw [htransform] at hrest
      have hlast : s₂.Kept K s₂.allocate := ⟨rfl, rfl, id⟩
      exact h₁.trans (hrest.trans hlast)

theorem sane_configure {outType : ImgFrameType} (hsane : s.Sane K) :
    (s.configure c outType).Sane K := by
  intro hfalse
  have hor : (s.mode.or (requestedMode c outType)).warp = false := hfalse
  simp only [Mode.or, Bool.or_eq_false_iff] at hor
  exact hsane hor.1

/-- Whether it returns or throws, a build leaves a sane object. -/
theorem post_build (hsane : s.Sane K) :
    Loop.Post (Sane K) (fun p => p.1.Sane K) (s.build backend K c) := by
  rw [build]
  split
  · exact hsane
  split
  · exact hsane
  · have hconfigure : ({ s with prevConfig := K.str c.newBase, outputOps := [] }.configure c
        (s.resolveOutType c)).Sane K := sane_configure hsane
    have hrest : Loop.Post _ _ (ImageManipOperations.rebuild backend K _) :=
      post_rebuild ({ s with prevConfig := K.str c.newBase, outputOps := [] }.configure c
        (s.resolveOutType c))
    cases hrebuild : ({ s with prevConfig := K.str c.newBase, outputOps := [] }.configure c
        (s.resolveOutType c)).rebuild backend K with
    | error p =>
      rw [hrebuild] at hrest
      exact hrest.sane hconfigure
    | ok s' =>
      rw [hrebuild] at hrest
      exact hrest.sane hconfigure

/-- **What a configured object becomes does not depend on what it was, if it is ready.** -/
theorem Ready.rebuild (hready : Ready backend s t) (hs : s.Sane K) (ht : t.Sane K)
    (h : s.rebuild backend K = .ok s') : ∃ t', t.rebuild backend K = .ok t' ∧ s'.Agrees t' := by
  rw [ImageManipOperations.rebuild] at h ⊢
  by_cases hzero : s.mode = .zero
  · rw [if_pos hzero] at h
    cases h
    obtain ⟨hmode, hconvert⟩ := hready.flags.resolve_right fun hflags => by
      rw [hzero] at hflags
      cases hflags.2.1
    have hwarp : s.mode.warp = false := by rw [hzero]; rfl
    obtain ⟨hmatrix, hinv, hcorners, hengine, hclr⟩ := hs hwarp
    obtain ⟨hmatrix', hinv', hcorners', hengine', hclr'⟩ := ht (hmode ▸ hwarp)
    rw [if_pos (hmode ▸ hzero)]
    refine ⟨t, rfl, ⟨hready.base, hready.outputFrameType, hready.inType, hready.type,
      hready.srcSpecs, hmode, hconvert.trans hready.convertInput.symm, ?_⟩,
      hmatrix.trans hmatrix'.symm, hinv.trans hinv'.symm, hcorners.trans hcorners'.symm,
      hengine.trans hengine'.symm, hclr.trans hclr'.symm⟩
    rintro (hconvert' | hsole)
    · simp [hconvert] at hconvert'
    · rw [hzero] at hsole
      cases hsole
  · have hzero' : t.mode ≠ .zero := by
      rcases hready.flags with ⟨hmode, -⟩ | ⟨-, -, hwarp, -⟩
      · exact hmode ▸ hzero
      · intro hzero'
        rw [hzero'] at hwarp
        cases hwarp
    rw [if_neg hzero] at h
    rw [if_neg hzero']
    obtain ⟨s₁, h₁, h⟩ := Loop.bind_eq_ok.1 h
    obtain ⟨s₂, h₂, h⟩ := Loop.bind_eq_ok.1 h
    cases h
    obtain ⟨t₁, ht₁, halike⟩ := hready.preprocess h₁
    have hkept : s.Kept K s₁ := by
      have hpost : Loop.Post (s.Kept K) (fun p => s.Kept K p.1) (s.preprocess backend) :=
        post_preprocess
      rwa [h₁] at hpost
    have hkept' : t.Kept K t₁ := by
      have hpost : Loop.Post (t.Kept K) (fun p => t.Kept K p.1) (t.preprocess backend) :=
        post_preprocess
      rwa [ht₁] at hpost
    obtain ⟨t₂, ht₂, hagrees⟩ := halike.transform (hkept.sane hs) (hkept'.sane ht) h₂
    rw [ht₁, Loop.ok_bind, ht₂, Loop.ok_bind]
    obtain ⟨⟨hbase, hout, hin, htype, hspecs, hmode, hconvert, hcc⟩, hmatrix, hinv, hcorners, hengine,
      hclr⟩ := hagrees
    exact ⟨_, rfl, ⟨hbase, hout, hin, htype, hspecs, hmode, hconvert, hcc⟩, hmatrix, hinv, hcorners,
      hengine, hclr⟩

/-! ### A build of a new object -/

/-- What is left when the frames have one row or one column. -/
theorem object_of_oneDimensional {p : ImageManipOperations F M × String} (hone : c.OneDimensional)
    (h : s.build backend K c = .error p) :
    p.1 = { s with prevConfig := K.str c.newBase, outputOps := [] } := by
  rw [build] at h
  split at h
  · cases h
  · simp only at h
    cases h
    rfl

theorem Agrees.reconfigured (h : s.Agrees t) {config : String} {ops : List (ManipOp F)} :
    { s with prevConfig := config, outputOps := ops }.Agrees t := by
  obtain ⟨⟨hbase, hout, hin, htype, hspecs, hmode, hconvert, hcc⟩, hmatrix, hinv, hcorners, hengine,
    hclr⟩ := h
  exact ⟨⟨hbase, hout, hin, htype, hspecs, hmode, hconvert, hcc⟩, hmatrix, hinv, hcorners, hengine,
    hclr⟩

/-- The object is what a new one is after this call alone. -/
def Matches (backend : Backend) (K : Geometry F M) (s : ImageManipOperations F M)
    (c : BuildCall F) : Prop :=
  ∀ unset, ∃ t, (new K unset).build backend K c = .ok t ∧ s.Agrees t

theorem sane_new (unset : Unset) : (new K unset).Sane K :=
  fun _ => ⟨rfl, rfl, rfl, rfl, rfl⟩

theorem isCached_new (unset : Unset) : (new K unset).isCached K c = false := by
  have hstr : K.str c.newBase ≠ "" := by
    intro h
    have hlength := congrArg String.length h
    simp [Geometry.str] at hlength
  simp [isCached, new, hstr]

theorem resolveOutType_new {unset : Unset}
    (h : c.outType = .NONE → s.base.colormap = .NONE ∨ c.inFrameType = VALID_TYPE_COLOR) :
    (new K unset).resolveOutType c = s.resolveOutType c := by
  rw [resolveOutType, resolveOutType]
  by_cases hnone : c.outType = .NONE
  · rw [if_pos hnone, if_pos hnone]
    have hnew : (new K unset).base.colormap = .NONE := rfl
    rcases h hnone with hcolormap | hcolor
    · simp [hnew, hcolormap]
    · simp [hcolor]
  · rw [if_neg hnone, if_neg hnone]

/-- What a new object becomes depends on the type of output that the call comes to mean. -/
theorem build_new_congr {unset : Unset} {c₀ : BuildCall F} (hbase : c₀.newBase = c.newBase)
    (hspecs : c₀.srcFrameSpecs = c.srcFrameSpecs) (hin : c₀.inFrameType = c.inFrameType)
    (hout : (new K unset).resolveOutType c₀ = (new K unset).resolveOutType c) :
    (new K unset).build backend K c₀ = (new K unset).build backend K c := by
  obtain ⟨base, out, specs, typeIn⟩ := c
  obtain ⟨base₀, out₀, specs₀, typeIn₀⟩ := c₀
  obtain rfl : base₀ = base := hbase
  obtain rfl : specs₀ = specs := hspecs
  obtain rfl : typeIn₀ = typeIn := hin
  rw [build, build, isCached_new, isCached_new, hout]
  rfl

theorem types_of_build (hcached : s.isCached K c = false) (h : s.build backend K c = .ok s') :
    s'.outputFrameType = s.resolveOutType c ∧ s'.inType = c.inFrameType := by
  rw [build, hcached, if_neg Bool.false_ne_true] at h
  split at h
  · cases h
  · have hpost : Loop.Post _ _ (ImageManipOperations.rebuild backend K _) :=
      post_rebuild ({ s with prevConfig := K.str c.newBase, outputOps := [] }.configure c
        (s.resolveOutType c))
    rw [h] at hpost
    exact ⟨hpost.outputFrameType, hpost.inType⟩

/-- The flags of the calls before do not show: they are all set by this call too, or they are set
again when its input is converted. -/
def FlagsCovered (backend : Backend) (s : ImageManipOperations F M) (c : BuildCall F) : Prop :=
  let requested := requestedMode c (s.resolveOutType c)
  s.mode.or requested = requested ∧ s.convertInput = false ∨
    isTypeSupported backend c.inFrameType = false ∧ requested.warp = true ∧
      (s.mode.colormap = true → requested.colormap = true)

/-- Both objects are ready when the flags of the calls before do not show. -/
theorem ready_configure {t : ImageManipOperations F M} (hmode : t.mode = .zero)
    (hconvert : t.convertInput = false) (hflags : FlagsCovered backend s c) :
    Ready backend (s.configure c (s.resolveOutType c)) (t.configure c (s.resolveOutType c)) := by
  refine ⟨rfl, rfl, rfl, rfl, rfl, hconvert, ?_⟩
  have hfresh : (t.configure c (s.resolveOutType c)).mode =
      requestedMode c (s.resolveOutType c) := by
    rw [configure, hmode, zero_or]
  rw [hfresh]
  rcases hflags with hflags | ⟨hsupported, hwarp, hcolormap⟩
  · exact .inl hflags
  · refine .inr ⟨hsupported, or_warp hwarp, hwarp, ?_⟩
    exact Bool.or_eq_right_iff_imp.2 hcolormap

/-- **The calls before do not matter for a call whose type of output and flags do not depend on
them.** -/
theorem agrees_rebuild (hsane : s.Sane K) (hcached : s.isCached K c = false)
    (hout : c.outType = .NONE → s.base.colormap = .NONE ∨ c.inFrameType = VALID_TYPE_COLOR)
    (hflags : ¬c.OneDimensional → FlagsCovered backend s c) (h : s.build backend K c = .ok s') :
    s'.Matches backend K c := by
  intro unset
  rw [build, hcached, if_neg Bool.false_ne_true] at h
  rw [build, isCached_new, if_neg Bool.false_ne_true, resolveOutType_new hout]
  split at h
  · cases h
  rename_i htwo
  rw [if_neg htwo]
  have hready : Ready backend
      ({ s with prevConfig := K.str c.newBase, outputOps := [] }.configure c (s.resolveOutType c))
      ({ new K unset with prevConfig := K.str c.newBase, outputOps := [] }.configure c
        (s.resolveOutType c)) := ready_configure rfl rfl (hflags htwo)
  exact hready.rebuild (sane_configure hsane) (sane_configure (sane_new unset)) h

end ImageManipOperations

/-! ### Every sequence of builds -/

/-- An object, the call that it was last built for from beginning to end, and the last call if that
returned. -/
structure Session (F M : Type) where
  object : ImageManipOperations F M
  built : Option (BuildCall F)
  returned : Option (BuildCall F)

namespace Session

variable {h h' : Session F M} {c : BuildCall F}

/-- A new object. -/
def new (K : Geometry F M) (unset : Unset) : Session F M :=
  ⟨.new K unset, none, none⟩

/-- A call of `build`. One for frames of one row or column throws before anything is built. -/
def build (backend : Backend) (K : Geometry F M) (h : Session F M) (c : BuildCall F) : Session F M :=
  match h.object.build backend K c with
  | .ok object => ⟨object, if h.object.isCached K c then h.built else some c, some c⟩
  | .error (object, _) => ⟨object, if c.OneDimensional then h.built else none, none⟩

/-- **The calls before do not matter for this one.** -/
structure Unaffected (backend : Backend) (K : Geometry F M) (h : Session F M) (c : BuildCall F) :
    Prop where
  /-- A call that names no type of output gets none from the colormap of the call before. -/
  outType : c.outType = .NONE → h.object.base.colormap = .NONE ∨ c.inFrameType = VALID_TYPE_COLOR
  /-- A call that is taken to be the one before has the configuration and the layout that the object
  was built for. -/
  cached : h.object.isCached K c = true →
    ∃ c₀, h.built = some c₀ ∧ c₀.newBase = c.newBase ∧ c₀.srcFrameSpecs = c.srcFrameSpecs
  /-- The flags of the calls before do not show. -/
  flags : h.object.isCached K c = false → ¬c.OneDimensional →
    ImageManipOperations.FlagsCovered backend h.object c

/-- The object is what a new one would be, after the last call and after the one it was built for. -/
structure Sound (backend : Backend) (K : Geometry F M) (h : Session F M) : Prop where
  sane : h.object.Sane K
  built : ∀ c, h.built = some c → h.object.Matches backend K c
  returned : ∀ c, h.returned = some c → h.object.Matches backend K c

open ImageManipOperations in
/-- A call that is taken to be the one before finds the object as a new one would be. -/
theorem Sound.matches_cached (hsound : h.Sound backend K) (hunaffected : h.Unaffected backend K c)
    (hcached : h.object.isCached K c = true) : h.object.Matches backend K c := by
  obtain ⟨c₀, hbuilt, hbase, hspecs⟩ := hunaffected.cached hcached
  intro unset
  obtain ⟨t, ht, hagrees⟩ := hsound.built c₀ hbuilt unset
  obtain ⟨hout, hin⟩ := types_of_build (isCached_new unset) ht
  simp only [isCached, Bool.and_eq_true, beq_iff_eq] at hcached
  obtain ⟨⟨⟨⟨-, hout'⟩, -⟩, -⟩, hin'⟩ := hcached
  refine ⟨t, ?_, hagrees⟩
  rw [← build_new_congr hbase hspecs, ht]
  · rw [← hin, ← hagrees.inType, hin']
  · rw [resolveOutType_new hunaffected.outType, hout', hagrees.outputFrameType, hout]

theorem sound_new (unset : Unset) : (Session.new K unset).Sound backend K :=
  ⟨ImageManipOperations.sane_new unset, fun _ h => (nomatch h), fun _ h => (nomatch h)⟩

open ImageManipOperations in
theorem Sound.build (hsound : h.Sound backend K) (hunaffected : h.Unaffected backend K c) :
    (h.build backend K c).Sound backend K := by
  have hsane : Loop.Post (Sane K) (fun p => p.1.Sane K) (h.object.build backend K c) :=
    post_build hsound.sane
  rw [Session.build]
  cases hbuild : h.object.build backend K c with
  | error p =>
    obtain ⟨object, e⟩ := p
    rw [hbuild] at hsane
    refine ⟨hsane, ?_, fun c' hc' => by cases hc'⟩
    intro c' hc'
    simp only at hc'
    split at hc'
    · rename_i hone
      -- Nothing that `Agrees` looks at has changed: only what the next configuration is compared to.
      obtain rfl := object_of_oneDimensional hone hbuild
      intro unset
      obtain ⟨t, ht, hagrees⟩ := hsound.built c' hc' unset
      exact ⟨t, ht, hagrees.reconfigured⟩
    · cases hc'
  | ok object =>
    rw [hbuild] at hsane
    have hmatches : object.Matches backend K c := by
      cases hcached : h.object.isCached K c with
      | true =>
        have hsame : object = h.object := by
          rw [ImageManipOperations.build, hcached, if_pos rfl] at hbuild
          cases hbuild
          rfl
        rw [hsame]
        exact hsound.matches_cached hunaffected hcached
      | false =>
        exact agrees_rebuild hsound.sane hcached hunaffected.outType (hunaffected.flags hcached) hbuild
    refine ⟨hsane, ?_, fun c' hc' => Option.some.inj hc' ▸ hmatches⟩
    intro c' hc'
    simp only at hc'
    split at hc'
    · rename_i hcached
      have hsame : object = h.object := by
        rw [ImageManipOperations.build, hcached, if_pos rfl] at hbuild
        cases hbuild
        rfl
      rw [hsame]
      exact hsound.built c' hc'
    · exact Option.some.inj hc' ▸ hmatches

end Session

/-! ### Frames of four by four -/

namespace Square

/-- Frames of four by four pixels, without padding between the rows. -/
def specs : FrameSpecs := ⟨4, 4, 0, 0, 0, 4, 4, 4⟩

/-- Arithmetic on nothing. -/
def arithmetic : Geometry Unit Unit where
  identity := ()
  getFullTransform _ _ _ _ _ := .error "no numbers"
  getMatrixInverse := .ok
  sourceBounds _ _ := ⟨0, 0, 0, 0⟩
  display _ := ""

/-- A call with the configuration of a new object, to color. -/
def toColor (type : ImgFrameType) : BuildCall Unit := ⟨{}, .RGB888i, specs, type⟩

/-- What the constructor leaves. -/
def unset : Unset := ⟨.NONE, .NONE, .NONE, specs⟩

/-- A new object, which has been built for these types one after the other. -/
def session (types : List ImgFrameType) : Session Unit Unit :=
  types.foldl (fun h type => h.build .OPENCV arithmetic (toColor type)) (.new arithmetic unset)

theorem run_session (type type' : ImgFrameType) :
    Transition.Run (fun h c => some (Session.build .OPENCV arithmetic h c)) (session [])
      [(session [], toColor type), (session [type], toColor type')] (session [type, type']) :=
  .snoc (.snoc .nil rfl) rfl

end Square

namespace Session

variable {h : Session F M} {c : BuildCall F}

/-- **A run of builds.** If no call is affected by the ones before, the object is after every call
that returns what a new one is after this call alone, and it is applied in the same way. -/
theorem agrees_run {unset : Unset} {tr : List (Session F M × BuildCall F)}
    (hrun : Transition.Run (fun h c => some (Session.build backend K h c)) (.new K unset) tr h)
    (hunaffected : ∀ p ∈ tr, p.1.Unaffected backend K p.2) (hreturned : h.returned = some c)
    (fresh : Unset) :
    ∃ t, (ImageManipOperations.new K fresh).build backend K c = .ok t ∧ h.object.Agrees t ∧
      ∀ srcSize, h.object.apply srcSize = t.apply srcSize := by
  have hsound : h.Sound backend K := by
    refine hrun.invariant_of_forall ?_ hunaffected (sound_new unset)
    rintro h c t hcall hh hstep
    obtain rfl := Option.some.inj hstep
    exact hh.build hcall
  obtain ⟨t, ht, hagrees⟩ := hsound.returned c hreturned fresh
  exact ⟨t, ht, hagrees, hagrees.apply_eq⟩

open Square in
/-- Gray frames, and then color frames with the other order of the channels: both are converted. -/
theorem agrees_run_session :
    (session [.GRAY8, .BGR888i]).returned = some (toColor .BGR888i) ∧
      ∃ t, (ImageManipOperations.new arithmetic unset).build .OPENCV arithmetic (toColor .BGR888i) =
        .ok t ∧ (session [.GRAY8, .BGR888i]).object.Agrees t ∧
        ∀ srcSize, (session [.GRAY8, .BGR888i]).object.apply srcSize = t.apply srcSize := by
  refine ⟨rfl, agrees_run (run_session .GRAY8 .BGR888i) ?_ rfl unset⟩
  intro p hp
  simp only [List.mem_cons, List.not_mem_nil, or_false] at hp
  rcases hp with rfl | rfl
  · exact ⟨fun hnone => (nomatch hnone), fun hcached => absurd hcached (by decide),
      fun _ _ => .inl ⟨by decide, by decide⟩⟩
  · exact ⟨fun hnone => (nomatch hnone), fun hcached => absurd hcached (by decide),
      fun _ _ => .inl ⟨by decide, by decide⟩⟩

open Square in
/-- Gray frames, and then frames that have the type of output already. They are converted all the
same, where a new object copies them. -/
theorem not_agrees_session :
    ∃ tr, Transition.Run (fun h c => some (Session.build .OPENCV arithmetic h c))
        (.new arithmetic unset) tr (session [.GRAY8, .RGB888i]) ∧
      (session [.GRAY8, .RGB888i]).returned = some (toColor .RGB888i) ∧
      ∃ t, (ImageManipOperations.new arithmetic unset).build .OPENCV arithmetic (toColor .RGB888i) =
        .ok t ∧ (session [.GRAY8, .RGB888i]).object.mode ≠ t.mode ∧ t.apply 48 = .ok [.copy] ∧
        (session [.GRAY8, .RGB888i]).object.apply 48 =
          .ok [.colorChange (some ⟨specs, specs, .RGB888i, .RGB888i⟩) .src .dst] :=
  ⟨_, run_session .GRAY8 .RGB888i, rfl, _, rfl, by decide, rfl, rfl⟩

end Session

end DepthaiCore.ImageManip
