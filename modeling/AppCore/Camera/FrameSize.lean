/-
  AppCore.Camera.FrameSize

  `calculate_frame_capacity` in words of `w` bits.  `fps`, `width` and `height` are
  `unsigned int`, of 32 bits; every product is one of `size_t`.
-/

import AppCore.Channel.Layout
import AppCore.Camera.Model

namespace AppCore
namespace Camera
namespace Words

open Channel.Words

variable {w : Nat}

/-- `camera_stream_config_t`. -/
structure CameraStreamConfig (w : Nat) where
  fps : BitVec 32
  width : BitVec 32
  height : BitVec 32
  bufferCount : BitVec w
deriving DecidableEq, Repr

/-- The numbers of a configuration. -/
def CameraStreamConfig.toNat (config : CameraStreamConfig w) : Camera.CameraStreamConfig where
  fps := config.fps.toNat
  width := config.width.toNat
  height := config.height.toNat
  bufferCount := config.bufferCount.toNat

/-- `calculate_frame_capacity`, with the capacity it stores; `config` is `none` and
    `outCapacity` false for `NULL`. -/
def calculateFrameCapacity (config : Option (CameraStreamConfig w)) (outCapacity : Bool) :
    Except SysErr (BitVec w) :=
  match config with
  | none => .error .invalidParam
  | some config =>
    if outCapacity = false ∨ config.fps = 0 ∨ config.fps > BitVec.ofNat 32 cameraMaxFps ∨
        config.width = 0 ∨ config.height = 0 ∨ config.bufferCount < BitVec.ofNat w 2 ∨
        config.bufferCount > BitVec.ofNat w cameraMaxBufferCount ∨
        config.width.setWidth w > BitVec.allOnes w / config.height.setWidth w then
      .error .invalidParam
    else
      let pixels := config.width.setWidth w * config.height.setWidth w
      if pixels > BitVec.allOnes w / BitVec.ofNat w 3 then .error .invalidParam
      else
        let outCapacity := pixels * BitVec.ofNat w 3 / BitVec.ofNat w 2
        if outCapacity = 0 ∨ outCapacity > BitVec.ofNat w cameraMaxFrameSize then
          .error .invalidParam
        else .ok outCapacity

/-- The bytes of a frame, over the naturals. -/
def frameBytes (config : CameraStreamConfig w) : Nat :=
  3 * config.width.toNat * config.height.toNat / 2

/-- The configurations the camera can stream. -/
structure Legal (config : CameraStreamConfig w) : Prop where
  fps : 1 ≤ config.fps.toNat ∧ config.fps.toNat ≤ cameraMaxFps
  bufferCount : 2 ≤ config.bufferCount.toNat ∧ config.bufferCount.toNat ≤ cameraMaxBufferCount
  width : config.width ≠ 0
  height : config.height ≠ 0
  frame : frameBytes config ≤ cameraMaxFrameSize

section Capacity

variable {config : CameraStreamConfig w}

/-- A word of 32 bits keeps its number in `size_t`. -/
theorem toNat_setWidth (hw : 32 ≤ w) (x : BitVec 32) : (x.setWidth w).toNat = x.toNat :=
  BitVec.toNat_setWidth_of_le hw

theorem toNat_pos {n : Nat} {x : BitVec n} (h : x ≠ 0) : 0 < x.toNat := by
  rw [Nat.pos_iff_ne_zero]
  intro hzero
  exact h (BitVec.eq_of_toNat_eq hzero)

/-- The number the guards of `calculate_frame_capacity` bound. -/
theorem frameBytes_eq (config : CameraStreamConfig w) :
    frameBytes config = config.width.toNat * config.height.toNat * 3 / 2 := by
  rw [frameBytes, Nat.mul_assoc, Nat.mul_comm 3]

/-- A legal frame is far from the end of `size_t`, also in three times its pixels. -/
theorem Legal.triple_lt (h : Legal config) (hw : 32 ≤ w) :
    config.width.toNat * config.height.toNat * 3 < 2 ^ w := by
  have hframe := h.frame
  rw [frameBytes_eq] at hframe
  have hword : 2 ^ 32 ≤ 2 ^ w := Nat.pow_le_pow_right (Nat.succ_pos 1) hw
  have hmax : cameraMaxFrameSize = 67108864 := rfl
  omega

/-- What the first test of `calculate_frame_capacity` lets pass. -/
structure Tested (config : CameraStreamConfig w) : Prop where
  fps : 1 ≤ config.fps.toNat ∧ config.fps.toNat ≤ cameraMaxFps
  bufferCount : 2 ≤ config.bufferCount.toNat ∧ config.bufferCount.toNat ≤ cameraMaxBufferCount
  width : config.width ≠ 0
  height : config.height ≠ 0
  pixels : config.width.toNat * config.height.toNat < 2 ^ w

theorem tested_iff (hw : 32 ≤ w) :
    ¬ (true = false ∨ config.fps = 0 ∨ config.fps > BitVec.ofNat 32 cameraMaxFps ∨
        config.width = 0 ∨ config.height = 0 ∨ config.bufferCount < BitVec.ofNat w 2 ∨
        config.bufferCount > BitVec.ofNat w cameraMaxBufferCount ∨
        config.width.setWidth w > BitVec.allOnes w / config.height.setWidth w) ↔
      Tested config := by
  have htwo : (BitVec.ofNat w 2).toNat = 2 := Block.toNat_ofNat_of_lt hw (by decide)
  have hcount : (BitVec.ofNat w cameraMaxBufferCount).toNat = cameraMaxBufferCount :=
    Block.toNat_ofNat_of_lt hw (by decide)
  have hfps : (BitVec.ofNat 32 cameraMaxFps).toNat = cameraMaxFps := rfl
  have hpixels (hheight : config.height ≠ 0) :
      config.width.setWidth w > BitVec.allOnes w / config.height.setWidth w ↔
        2 ^ w ≤ config.width.toNat * config.height.toNat := by
    have hne : config.height.setWidth w ≠ 0 := by
      intro hzero
      have := toNat_setWidth hw config.height
      rw [hzero] at this
      exact hheight (BitVec.eq_of_toNat_eq this.symm)
    rw [gt_iff_lt, Block.allOnes_udiv_lt hne, toNat_setWidth hw, toNat_setWidth hw]
  constructor
  · intro h
    obtain ⟨-, hzero, hlarge, hwidth, hheight, hfew, hmany, hwraps⟩ :=
      by simpa only [not_or] using h
    rw [hpixels hheight, Nat.not_le] at hwraps
    rw [gt_iff_lt, BitVec.lt_def, hfps, Nat.not_lt] at hlarge
    rw [BitVec.lt_def, htwo, Nat.not_lt] at hfew
    rw [gt_iff_lt, BitVec.lt_def, hcount, Nat.not_lt] at hmany
    exact ⟨⟨toNat_pos hzero, hlarge⟩, ⟨hfew, hmany⟩, hwidth, hheight, hwraps⟩
  · rintro ⟨⟨hzero, hlarge⟩, ⟨hfew, hmany⟩, hwidth, hheight, hwraps⟩
    simp only [not_or]
    refine ⟨Bool.noConfusion, ?_, ?_, hwidth, hheight, ?_, ?_, ?_⟩
    · rintro hfpsZero
      rw [hfpsZero] at hzero
      exact absurd hzero (by decide)
    · rw [gt_iff_lt, BitVec.lt_def, hfps, Nat.not_lt]
      exact hlarge
    · rw [BitVec.lt_def, htwo, Nat.not_lt]
      exact hfew
    · rw [gt_iff_lt, BitVec.lt_def, hcount, Nat.not_lt]
      exact hmany
    · rw [hpixels hheight, Nat.not_le]
      exact hwraps

/-- The pixels of a configuration that passed the first test. -/
theorem Tested.toNat_pixels (h : Tested config) (hw : 32 ≤ w) :
    (config.width.setWidth w * config.height.setWidth w).toNat =
      config.width.toNat * config.height.toNat := by
  rw [BitVec.toNat_mul_of_lt, toNat_setWidth hw, toNat_setWidth hw]
  rw [toNat_setWidth hw, toNat_setWidth hw]
  exact h.pixels

/-- The second test bounds three times the pixels. -/
theorem Tested.triple_iff (h : Tested config) (hw : 32 ≤ w) :
    config.width.setWidth w * config.height.setWidth w > BitVec.allOnes w / BitVec.ofNat w 3 ↔
      2 ^ w ≤ config.width.toNat * config.height.toNat * 3 := by
  have hthree : (BitVec.ofNat w 3).toNat = 3 := Block.toNat_ofNat_of_lt hw (by decide)
  have hne : BitVec.ofNat w 3 ≠ 0 := by
    intro hzero
    rw [hzero, BitVec.ofNat_eq_ofNat, BitVec.toNat_zero] at hthree
    exact absurd hthree (by decide)
  rw [gt_iff_lt, Block.allOnes_udiv_lt hne, h.toNat_pixels hw, hthree]

/-- The capacity of a configuration that passed both tests. -/
theorem Tested.toNat_capacity (h : Tested config) (hw : 32 ≤ w)
    (htriple : config.width.toNat * config.height.toNat * 3 < 2 ^ w) :
    (config.width.setWidth w * config.height.setWidth w * BitVec.ofNat w 3 /
        BitVec.ofNat w 2).toNat = frameBytes config := by
  have htwo : (BitVec.ofNat w 2).toNat = 2 := Block.toNat_ofNat_of_lt hw (by decide)
  have hthree : (BitVec.ofNat w 3).toNat = 3 := Block.toNat_ofNat_of_lt hw (by decide)
  rw [BitVec.toNat_udiv, BitVec.toNat_mul_of_lt, h.toNat_pixels hw, hthree, htwo, frameBytes_eq]
  rw [h.toNat_pixels hw, hthree]
  exact htriple

/-- A frame has at least one byte. -/
theorem Tested.frameBytes_pos (h : Tested config) : 0 < frameBytes config := by
  have hpixels : 0 < config.width.toNat * config.height.toNat :=
    Nat.mul_pos (toNat_pos h.width) (toNat_pos h.height)
  rw [frameBytes_eq]
  omega

/-- Exactly the legal configurations pass, with the bytes of their frame. -/
theorem calculateFrameCapacity_ok_iff (hw : 32 ≤ w) {capacity : BitVec w} :
    calculateFrameCapacity (some config) true = .ok capacity ↔
      Legal config ∧ capacity.toNat = frameBytes config := by
  have hmax : (BitVec.ofNat w cameraMaxFrameSize).toNat = cameraMaxFrameSize :=
    Block.toNat_ofNat_of_lt hw (by decide)
  constructor
  · intro h
    dsimp only [calculateFrameCapacity] at h
    split at h
    · cases h
    rename_i hguard
    have htested := (tested_iff hw).mp hguard
    split at h
    · cases h
    rename_i htriple
    rw [htested.triple_iff hw, Nat.not_le] at htriple
    have hcapacity := htested.toNat_capacity hw htriple
    split at h
    · cases h
    rename_i hlarge
    have hle := (not_or.mp hlarge).2
    rw [gt_iff_lt, BitVec.lt_def, hcapacity, hmax, Nat.not_lt] at hle
    cases h
    exact ⟨⟨htested.fps, htested.bufferCount, htested.width, htested.height, hle⟩, hcapacity⟩
  · rintro ⟨hlegal, hbytes⟩
    have htriple := hlegal.triple_lt hw
    have htested : Tested config :=
      ⟨hlegal.fps, hlegal.bufferCount, hlegal.width, hlegal.height,
        Nat.lt_of_le_of_lt (Nat.le_mul_of_pos_right _ (Nat.succ_pos 2)) htriple⟩
    have hcapacity := htested.toNat_capacity hw htriple
    have heq : config.width.setWidth w * config.height.setWidth w * BitVec.ofNat w 3 /
        BitVec.ofNat w 2 = capacity := BitVec.eq_of_toNat_eq (hcapacity.trans hbytes.symm)
    have hbound : ¬ (capacity = 0 ∨ capacity > BitVec.ofNat w cameraMaxFrameSize) := by
      rw [not_or]
      constructor
      · intro hzero
        have hpos := htested.frameBytes_pos
        rw [← hbytes, hzero, BitVec.ofNat_eq_ofNat, BitVec.toNat_zero] at hpos
        exact absurd hpos (Nat.lt_irrefl 0)
      · rw [gt_iff_lt, BitVec.lt_def, hbytes, hmax, Nat.not_lt]
        exact hlegal.frame
    dsimp only [calculateFrameCapacity]
    rw [if_neg ((tested_iff hw).mpr htested),
      if_neg (mt (htested.triple_iff hw).mp (Nat.not_le_of_lt htriple)), heq, if_neg hbound]

/-- The camera's `calculate_frame_capacity` makes the same tests on the numbers of the
    words, and stores the number of the same capacity. -/
theorem calculateFrameCapacity_refines {P : Platform} (hP : P.WordSize w) (hw : 32 ≤ w)
    (config : CameraStreamConfig w) :
    Camera.calculateFrameCapacity P (some config.toNat) =
      (calculateFrameCapacity (some config) true).map BitVec.toNat := by
  have hzero {n : Nat} (x : BitVec n) : x.toNat = 0 ↔ x = 0 :=
    ⟨fun h => BitVec.eq_of_toNat_eq h, fun h => h ▸ BitVec.toNat_zero⟩
  have hnumber {n : Nat} (hn : n < 2 ^ 32) : (BitVec.ofNat w n).toNat = n :=
    Block.toNat_ofNat_of_lt hw hn
  have hfirst : (config.fps.toNat = 0 ∨ config.fps.toNat > cameraMaxFps ∨
      config.width.toNat = 0 ∨ config.height.toNat = 0 ∨ config.bufferCount.toNat < 2 ∨
      config.bufferCount.toNat > cameraMaxBufferCount ∨
      config.width.toNat > P.sizeMax / config.height.toNat) ↔ ¬ Tested config := by
    rw [← tested_iff hw, not_not, hzero, hzero, hzero]
    simp only [gt_iff_lt, BitVec.lt_def, BitVec.toNat_udiv, toNat_setWidth hw,
      hP.toNat_allOnes, hnumber (n := 2) (by decide),
      hnumber (n := cameraMaxBufferCount) (by decide), Bool.true_eq_false, false_or]
    rfl
  by_cases htested : Tested config
  · have hpixels := htested.toNat_pixels hw
    have hsecond : config.width.toNat * config.height.toNat > P.sizeMax / 3 ↔
        2 ^ w ≤ config.width.toNat * config.height.toNat * 3 := by
      rw [← htested.triple_iff hw, gt_iff_lt, gt_iff_lt, BitVec.lt_def, BitVec.toNat_udiv,
        hpixels, hP.toNat_allOnes, hnumber (n := 3) (by decide)]
    dsimp only [Camera.calculateFrameCapacity, calculateFrameCapacity, CameraStreamConfig.toNat]
    rw [if_neg (mt hfirst.mp (not_not_intro htested)), if_neg ((tested_iff hw).mpr htested)]
    by_cases htriple : 2 ^ w ≤ config.width.toNat * config.height.toNat * 3
    · rw [if_pos (hsecond.mpr htriple), if_pos ((htested.triple_iff hw).mpr htriple)]
      rfl
    · rw [if_neg (mt hsecond.mp htriple), if_neg (mt (htested.triple_iff hw).mp htriple)]
      have hcapacity := htested.toNat_capacity hw (Nat.lt_of_not_le htriple)
      have hthird : (config.width.toNat * config.height.toNat * 3 / 2 = 0 ∨
          config.width.toNat * config.height.toNat * 3 / 2 > cameraMaxFrameSize) ↔
          (config.width.setWidth w * config.height.setWidth w * BitVec.ofNat w 3 /
            BitVec.ofNat w 2 = 0 ∨
          config.width.setWidth w * config.height.setWidth w * BitVec.ofNat w 3 /
            BitVec.ofNat w 2 > BitVec.ofNat w cameraMaxFrameSize) := by
        rw [← hzero, gt_iff_lt, gt_iff_lt, BitVec.lt_def, hcapacity, frameBytes_eq,
          hnumber (n := cameraMaxFrameSize) (by decide)]
      by_cases hbound : config.width.toNat * config.height.toNat * 3 / 2 = 0 ∨
          config.width.toNat * config.height.toNat * 3 / 2 > cameraMaxFrameSize
      · rw [if_pos hbound, if_pos (hthird.mp hbound)]
        rfl
      · rw [if_neg hbound, if_neg (mt hthird.mpr hbound), ← frameBytes_eq, ← hcapacity]
        rfl
  · dsimp only [Camera.calculateFrameCapacity, calculateFrameCapacity, CameraStreamConfig.toNat]
    rw [if_pos (hfirst.mpr htested), if_pos (not_not.mp (mt (tested_iff hw).mp htested))]
    rfl

/-- Nothing but a legal configuration, and a place for its capacity, is accepted. -/
theorem calculateFrameCapacity_accepts_iff (hw : 32 ≤ w) (config : Option (CameraStreamConfig w))
    (outCapacity : Bool) :
    (∃ capacity, calculateFrameCapacity config outCapacity = .ok capacity) ↔
      outCapacity = true ∧ ∃ c, config = some c ∧ Legal c := by
  constructor
  · rintro ⟨capacity, h⟩
    cases config with
    | none => cases h
    | some c =>
        cases outCapacity with
        | true => exact ⟨rfl, c, rfl, ((calculateFrameCapacity_ok_iff hw).mp h).1⟩
        | false =>
            dsimp only [calculateFrameCapacity] at h
            rw [if_pos (Or.inl rfl)] at h
            cases h
  · rintro ⟨rfl, c, rfl, hlegal⟩
    have hlt : frameBytes c < 2 ^ 32 := Nat.lt_of_le_of_lt hlegal.frame (by decide)
    exact ⟨BitVec.ofNat w (frameBytes c),
      (calculateFrameCapacity_ok_iff hw).mpr ⟨hlegal, Block.toNat_ofNat_of_lt hw hlt⟩⟩

end Capacity

/-! ## The sizes of a stream -/

section Sizes

variable {P : Platform}

theorem sizeofBuffer_ne_zero (hP : P.WordSize w) : BitVec.ofNat w P.bufferSize ≠ 0 := by
  intro hzero
  have hsize := hP.toNat_bufferSize
  rw [hzero, BitVec.ofNat_eq_ofNat, BitVec.toNat_zero] at hsize
  exact absurd hsize (Nat.ne_of_lt P.bufferSize_pos)

/-- The capacity of a frame is at least one, and a stream has at least two buffers: of a
    stream's pool only the products can be too large. -/
theorem stream_accepted_iff (hw : 32 ≤ w) {config : CameraStreamConfig w} {capacity : BitVec w}
    (h : calculateFrameCapacity (some config) true = .ok capacity) {sizeofBuffer : BitVec w} :
    Accepted sizeofBuffer config.bufferCount capacity ↔
      config.bufferCount.toNat * frameBytes config < 2 ^ w ∧
        config.bufferCount.toNat * sizeofBuffer.toNat < 2 ^ w := by
  obtain ⟨hlegal, hbytes⟩ := (calculateFrameCapacity_ok_iff hw).mp h
  constructor
  · intro haccepted
    rw [← hbytes]
    exact ⟨haccepted.storage_lt, haccepted.descriptors_lt⟩
  · rintro ⟨hstorage, hdescriptors⟩
    refine ⟨?_, ?_, ?_, hdescriptors⟩
    · intro hzero
      have htwo := hlegal.bufferCount.1
      rw [hzero, BitVec.ofNat_eq_ofNat, BitVec.toNat_zero] at htwo
      omega
    · intro hzero
      have hpixels : 0 < config.width.toNat * config.height.toNat :=
        Nat.mul_pos (toNat_pos hlegal.width) (toNat_pos hlegal.height)
      rw [hzero, BitVec.ofNat_eq_ofNat, BitVec.toNat_zero, frameBytes_eq] at hbytes
      omega
    · rw [hbytes]
      exact hstorage

/-- `calculate_frame_capacity` accepts the legal configurations, with the bytes of their
    frame, and no others.  A pool that `sys_buffer_pool_create` accepts has sizes that fit,
    and its buffers share its storage out; a stream's pool is accepted when they fit. -/
theorem sizes_never_wrap (hP : P.WordSize w) (hw : w = 32 ∨ w = 64) :
    (∀ (config : Option (CameraStreamConfig w)) (outCapacity : Bool),
      (∃ capacity, calculateFrameCapacity config outCapacity = .ok capacity) ↔
        outCapacity = true ∧ ∃ c, config = some c ∧ Legal c) ∧
    (∀ (config : CameraStreamConfig w) (capacity : BitVec w),
      calculateFrameCapacity (some config) true = .ok capacity →
        capacity.toNat = frameBytes config) ∧
    (∀ (blockCount blockCapacity : BitVec w) (outPool : Bool) (environment : SysErr)
      (l : PoolLayout w),
      sysBufferPoolCreate (BitVec.ofNat w P.bufferSize) blockCount blockCapacity outPool
          environment = (.ok, some l) →
        blockCount.toNat * blockCapacity.toNat ≤ P.sizeMax ∧
          blockCount.toNat * P.bufferSize ≤ P.sizeMax ∧
          l.blockCount = blockCount ∧ l.blockCapacity = blockCapacity ∧
          l.Sound (BitVec.ofNat w P.bufferSize)) ∧
    ∀ (config : CameraStreamConfig w) (capacity : BitVec w),
      calculateFrameCapacity (some config) true = .ok capacity →
        ((∃ l, sysBufferPoolCreate (BitVec.ofNat w P.bufferSize) config.bufferCount capacity
            true .ok = (.ok, some l)) ↔
          config.bufferCount.toNat * frameBytes config ≤ P.sizeMax ∧
            config.bufferCount.toNat * P.bufferSize ≤ P.sizeMax) := by
  have hle : 32 ≤ w := by omega
  have hsize := sizeofBuffer_ne_zero hP
  have hmax (x : Nat) : x < 2 ^ w ↔ x ≤ P.sizeMax := by
    rw [hP.sizeMax_eq, Nat.le_sub_one_iff_lt (Nat.two_pow_pos w)]
  refine ⟨calculateFrameCapacity_accepts_iff hle, ?_, ?_, ?_⟩
  · intro config capacity h
    exact ((calculateFrameCapacity_ok_iff hle).mp h).2
  · intro blockCount blockCapacity outPool environment l h
    obtain ⟨haccepted, hcount, hcapacity, hsound⟩ := sysBufferPoolCreate_sound hsize h
    have hdescriptors := haccepted.descriptors_lt
    rw [hP.toNat_bufferSize] at hdescriptors
    exact ⟨(hmax _).mp haccepted.storage_lt, (hmax _).mp hdescriptors, hcount, hcapacity, hsound⟩
  · intro config capacity h
    rw [sysBufferPoolCreate_accepts_iff hsize, stream_accepted_iff hle h, hP.toNat_bufferSize,
      hmax, hmax]

/-- 64 frames of 64 MiB each. -/
def largestStream (w : Nat) : CameraStreamConfig w where
  fps := 30
  width := 3
  height := 14913081
  bufferCount := BitVec.ofNat w 64

/-- A frame of exactly 64 MiB is legal on both platforms.  Its 64 blocks are one byte more
    than 32 bits can count, and no pool is created; 64 bits hold them. -/
theorem sizes_never_wrap_largest :
    (∃ capacity, calculateFrameCapacity (some (largestStream 32)) true = .ok capacity ∧
      ¬ ∃ l, sysBufferPoolCreate (BitVec.ofNat 32 Platform.ilp32.bufferSize)
        (largestStream 32).bufferCount capacity true .ok = (.ok, some l)) ∧
    ∃ capacity, calculateFrameCapacity (some (largestStream 64)) true = .ok capacity ∧
      ∃ l, sysBufferPoolCreate (BitVec.ofNat 64 Platform.lp64.bufferSize)
        (largestStream 64).bufferCount capacity true .ok = (.ok, some l) := by
  have h32 : Platform.ilp32.WordSize 32 := ⟨rfl, by decide⟩
  have h64 : Platform.lp64.WordSize 64 := ⟨rfl, by decide⟩
  have hlegal32 : Legal (largestStream 32) :=
    ⟨by decide, by decide, by decide, by decide, by decide⟩
  have hlegal64 : Legal (largestStream 64) :=
    ⟨by decide, by decide, by decide, by decide, by decide⟩
  obtain ⟨haccepts32, -, -, hpool32⟩ := sizes_never_wrap h32 (Or.inl rfl)
  obtain ⟨haccepts64, -, -, hpool64⟩ := sizes_never_wrap h64 (Or.inr rfl)
  obtain ⟨capacity32, hcapacity32⟩ := (haccepts32 _ true).mpr ⟨rfl, _, rfl, hlegal32⟩
  obtain ⟨capacity64, hcapacity64⟩ := (haccepts64 _ true).mpr ⟨rfl, _, rfl, hlegal64⟩
  refine ⟨⟨capacity32, hcapacity32, ?_⟩, capacity64, hcapacity64, ?_⟩
  · rw [hpool32 _ _ hcapacity32]
    decide
  · rw [hpool64 _ _ hcapacity64]
    decide

end Sizes

end Words
end Camera
end AppCore
