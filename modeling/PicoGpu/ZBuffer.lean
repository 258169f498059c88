import PicoGpu.Lib.Nearest
import PicoGpu.MemoryClients

/- What the output merger makes of the memory, when its accesses take no time. Each
   pixel has a dword in the color buffer and one in the depth buffer; a fragment
   changes those of its own pixel, and with the depth test these two are a cell that
   keeps the nearest fragment. -/
namespace PicoGpu
open Nearest

/-! ## Pixels and their dwords -/

namespace OutputMerger

/-- The dword of the pixel `(x, y)` in a buffer. -/
def pixelDword (base : MemoryAddressType) (width : Dword) (x y : BitVec 16) : MemoryAddressType :=
  base + (y.setWidth 32 * width + x.setWidth 32) * 4

def colorDword (pins : OutputMergerPins) (x y : BitVec 16) : MemoryAddressType :=
  pixelDword pins.framebufferAddress pins.framebufferWidth x y

def depthDword (pins : OutputMergerPins) (x y : BitVec 16) : MemoryAddressType :=
  pixelDword pins.depthAddress pins.framebufferWidth x y

end OutputMerger

open OutputMerger

/-- A buffer of so many dwords in a memory of `size` dwords. -/
structure BufferFits (size : Nat) (base : MemoryAddressType) (pixels : Nat) : Prop where
  aligned : base.toNat % 4 = 0
  fits : base.toNat + 4 * pixels ≤ 2 ^ 32
  inRange : ∀ k < pixels, addressIndex (base + BitVec.ofNat 32 (4 * k)) < size

/-- Pixels of the framebuffer. -/
def InFrame (pins : OutputMergerPins) (height : Nat) (x y : BitVec 16) : Prop :=
  x.toNat < pins.framebufferWidth.toNat ∧ y.toNat < height

/-- The buffers are aligned, in range and disjoint. -/
structure FrameFits (size : Nat) (pins : OutputMergerPins) (height : Nat) : Prop where
  color : BufferFits size pins.framebufferAddress (pins.framebufferWidth.toNat * height)
  depth : pins.depthEnable = true →
    BufferFits size pins.depthAddress (pins.framebufferWidth.toNat * height)
  disjoint : pins.depthEnable = true →
    pins.framebufferAddress.toNat + 4 * (pins.framebufferWidth.toNat * height) ≤
        pins.depthAddress.toNat ∨
      pins.depthAddress.toNat + 4 * (pins.framebufferWidth.toNat * height) ≤
        pins.framebufferAddress.toNat

section
variable {size height width : Nat} {base : MemoryAddressType} {pins : OutputMergerPins}
  {x y x' y' : BitVec 16}

/-- The number of a pixel, row by row. -/
theorem pixel_lt {i j : Nat} (hi : i < width) (hj : j < height) : j * width + i < width * height := by
  have hrow : (j + 1) * width ≤ height * width := Nat.mul_le_mul_right width hj
  rw [Nat.succ_mul] at hrow
  rw [Nat.mul_comm width height]
  omega

theorem pixel_inj {i j i' j' : Nat} (hi : i < width) (hi' : i' < width)
    (h : j * width + i = j' * width + i') : i = i' ∧ j = j' := by
  have hpos : 0 < width := by omega
  have hmod := congrArg (· % width) h
  have hdiv := congrArg (· / width) h
  simp only [Nat.mul_add_mod', Nat.mod_eq_of_lt hi, Nat.mod_eq_of_lt hi'] at hmod
  rw [Nat.mul_comm j, Nat.mul_comm j'] at hdiv
  simp only [Nat.mul_add_div hpos, Nat.div_eq_of_lt hi, Nat.div_eq_of_lt hi', Nat.add_zero] at hdiv
  exact ⟨hmod, hdiv⟩

/-- No pixel of a buffer that fits wraps around. -/
theorem pixelDword_toNat {width : Dword} (hfits : BufferFits size base (width.toNat * height))
    (hx : x.toNat < width.toNat) (hy : y.toNat < height) :
    (pixelDword base width x y).toNat = base.toNat + 4 * (y.toNat * width.toNat + x.toNat) := by
  have hlt := pixel_lt hx hy
  have hfit := hfits.fits
  have hx16 := x.isLt
  have hy16 := y.isLt
  unfold pixelDword
  rw [BitVec.toNat_add, BitVec.toNat_mul, BitVec.toNat_add, BitVec.toNat_mul,
    BitVec.toNat_setWidth, BitVec.toNat_setWidth, Nat.mod_eq_of_lt (show x.toNat < 2 ^ 32 by omega),
    Nat.mod_eq_of_lt (show y.toNat < 2 ^ 32 by omega),
    show BitVec.toNat (4 : MemoryAddressType) = 4 from rfl]
  generalize y.toNat * width.toNat = row at hlt ⊢
  generalize width.toNat * height = pixels at hlt hfit
  omega

theorem pixelDword_valid {width : Dword} (hfits : BufferFits size base (width.toNat * height))
    (hx : x.toNat < width.toNat) (hy : y.toNat < height) :
    ValidAddress size (pixelDword base width x y) := by
  have htoNat := pixelDword_toNat hfits hx hy
  have haligned := hfits.aligned
  have hnumber : pixelDword base width x y =
      base + BitVec.ofNat 32 (4 * (y.toNat * width.toNat + x.toNat)) := by
    have hlt := pixel_lt hx hy
    have hfit := hfits.fits
    apply BitVec.eq_of_toNat_eq
    rw [htoNat, BitVec.toNat_add, BitVec.toNat_ofNat]
    omega
  constructor
  · omega
  · rw [hnumber]
    exact hfits.inRange _ (pixel_lt hx hy)

theorem pixelDword_inj {width : Dword} (hfits : BufferFits size base (width.toNat * height))
    (hx : x.toNat < width.toNat) (hy : y.toNat < height) (hx' : x'.toNat < width.toNat)
    (hy' : y'.toNat < height) (h : pixelDword base width x y = pixelDword base width x' y') :
    x = x' ∧ y = y' := by
  have hnat := congrArg BitVec.toNat h
  rw [pixelDword_toNat hfits hx hy, pixelDword_toNat hfits hx' hy'] at hnat
  obtain ⟨hxx, hyy⟩ := @pixel_inj width.toNat x.toNat y.toNat x'.toNat y'.toNat hx hx' (by omega)
  exact ⟨BitVec.eq_of_toNat_eq hxx, BitVec.eq_of_toNat_eq hyy⟩

namespace FrameFits
variable (hframe : FrameFits size pins height)

include hframe

theorem colorDword_inj (h : InFrame pins height x y) (h' : InFrame pins height x' y') :
    colorDword pins x y = colorDword pins x' y' ↔ x = x' ∧ y = y' := by
  constructor
  · exact pixelDword_inj hframe.color h.1 h.2 h'.1 h'.2
  · rintro ⟨rfl, rfl⟩
    rfl

theorem depthDword_inj (henable : pins.depthEnable = true) (h : InFrame pins height x y)
    (h' : InFrame pins height x' y') :
    depthDword pins x y = depthDword pins x' y' ↔ x = x' ∧ y = y' := by
  constructor
  · exact pixelDword_inj (hframe.depth henable) h.1 h.2 h'.1 h'.2
  · rintro ⟨rfl, rfl⟩
    rfl

theorem color_ne_depth (henable : pins.depthEnable = true) (h : InFrame pins height x y)
    (h' : InFrame pins height x' y') : colorDword pins x y ≠ depthDword pins x' y' := by
  intro heq
  have hnat := congrArg BitVec.toNat heq
  unfold colorDword depthDword at hnat
  rw [pixelDword_toNat hframe.color h.1 h.2,
    pixelDword_toNat (hframe.depth henable) h'.1 h'.2] at hnat
  have hlt := pixel_lt h.1 h.2
  have hlt' := pixel_lt h'.1 h'.2
  have hdisjoint := hframe.disjoint henable
  omega

end FrameFits

end

/-! ## One fragment -/

section
variable {F : Type} (f : Floats F)

/-- What `main` makes of the memory for one fragment. -/
def mergeFragment (pins : OutputMergerPins) (m : MemoryAddressType → MemoryDataType)
    (fragment : ShadedFragment) : MemoryAddressType → MemoryDataType :=
  let depthAddress := depthDword pins fragment.x fragment.y
  let colorAddress := colorDword pins fragment.x fragment.y
  let fragmentZ := f.ofBits fragment.z
  let currentDepth := f.ofBits (m depthAddress)
  if pins.depthEnable then
    if f.lt currentDepth fragmentZ || f.eq fragmentZ currentDepth then m
    else if !f.eq currentDepth fragmentZ then
      Function.update (Function.update m depthAddress (f.bits fragmentZ)) colorAddress fragment.color
    else Function.update m colorAddress fragment.color
  else Function.update m colorAddress fragment.color

variable {K : Type} [LinearOrder K]

/-- The depths compare like keys of a total order, and keep their bits. -/
structure DepthOrder (key : Dword → K) (depths : Dword → Prop) : Prop where
  lt : ∀ a b, depths a → depths b → f.lt (f.ofBits a) (f.ofBits b) = decide (key a < key b)
  eq : ∀ a b, depths a → depths b → f.eq (f.ofBits a) (f.ofBits b) = decide (key a = key b)
  bits : ∀ a, depths a → f.bits (f.ofBits a) = a

/-- The depth and the color of a pixel. -/
def pixelCell (pins : OutputMergerPins) (x y : BitVec 16) (m : MemoryAddressType → MemoryDataType) :
    Dword × Dword := (m (depthDword pins x y), m (colorDword pins x y))

def ShadedFragment.cell (fragment : ShadedFragment) : Dword × Dword := (fragment.z, fragment.color)

/-- The fragments of a pixel, in their order. -/
def fragmentsAt (x y : BitVec 16) (fragments : List ShadedFragment) : List ShadedFragment :=
  fragments.filter fun fragment => fragment.x = x ∧ fragment.y = y

theorem fragmentsAt_concat (x y : BitVec 16) (fragments : List ShadedFragment)
    (fragment : ShadedFragment) : fragmentsAt x y (fragments ++ [fragment]) =
      fragmentsAt x y fragments ++ if fragment.x = x ∧ fragment.y = y then [fragment] else [] := by
  unfold fragmentsAt
  rw [List.filter_append, List.filter_singleton]
  by_cases h : fragment.x = x ∧ fragment.y = y
  · simp [h]
  · simp [h]

variable {f} {key : Dword → K} {depths : Dword → Prop} {size height : Nat}
  {pins : OutputMergerPins} {m : MemoryAddressType → MemoryDataType} {fragment : ShadedFragment}
  {x y : BitVec 16}

/-- With the depth test a fragment offers its depth and color to the cell of its pixel. -/
theorem mergeFragment_cell (horder : DepthOrder f key depths) (hframe : FrameFits size pins height)
    (henable : pins.depthEnable = true) (hfragment : InFrame pins height fragment.x fragment.y)
    (hz : depths fragment.z) (hpixel : InFrame pins height x y)
    (hdepth : depths (m (depthDword pins x y))) :
    pixelCell pins x y (mergeFragment f pins m fragment) =
      if fragment.x = x ∧ fragment.y = y then
        keep (fun cell => key cell.1) (pixelCell pins x y m) fragment.cell
      else pixelCell pins x y m := by
  have hne : ∀ {x y x' y'}, InFrame pins height x y → InFrame pins height x' y' →
      colorDword pins x y ≠ depthDword pins x' y' :=
    fun h h' => hframe.color_ne_depth henable h h'
  by_cases hhere : fragment.x = x ∧ fragment.y = y
  · obtain ⟨rfl, rfl⟩ := hhere
    have hlt := horder.lt _ _ hdepth hz
    have heq := horder.eq _ _ hz hdepth
    have heq' := horder.eq _ _ hdepth hz
    rw [if_pos ⟨rfl, rfl⟩]
    unfold mergeFragment keep pixelCell ShadedFragment.cell
    simp only [henable, if_true, hlt, heq, heq', horder.bits _ hz]
    rcases lt_trichotomy (key fragment.z) (key (m (depthDword pins fragment.x fragment.y)))
      with hnear | hsame | hfar
    · simp [hnear, not_lt_of_gt hnear, ne_of_lt hnear, ne_of_gt hnear,
        (hne hfragment hfragment).symm]
    · simp [hsame]
    · simp [hfar, not_lt_of_gt hfar]
  · rw [if_neg hhere]
    have hdepthNe : depthDword pins x y ≠ depthDword pins fragment.x fragment.y := by
      intro h
      obtain ⟨rfl, rfl⟩ := (hframe.depthDword_inj henable hpixel hfragment).mp h
      exact hhere ⟨rfl, rfl⟩
    have hcolorNe : colorDword pins x y ≠ colorDword pins fragment.x fragment.y := by
      intro h
      obtain ⟨rfl, rfl⟩ := (hframe.colorDword_inj hpixel hfragment).mp h
      exact hhere ⟨rfl, rfl⟩
    unfold mergeFragment pixelCell
    dsimp only
    rw [if_pos henable]
    split_ifs
    · rfl
    · simp [hdepthNe, hcolorNe, hne hpixel hfragment, (hne hfragment hpixel).symm]
    · simp [hcolorNe, (hne hfragment hpixel).symm]

/-- Without it the color is that of the fragment. -/
theorem mergeFragment_color (hframe : FrameFits size pins height)
    (henable : pins.depthEnable = false) (hfragment : InFrame pins height fragment.x fragment.y)
    (hpixel : InFrame pins height x y) :
    mergeFragment f pins m fragment (colorDword pins x y) =
      if fragment.x = x ∧ fragment.y = y then fragment.color else m (colorDword pins x y) := by
  have hiff := hframe.colorDword_inj hpixel hfragment
  unfold mergeFragment
  simp only [henable, Bool.false_eq_true, if_false, Function.update_apply, hiff, eq_comm]

/-- A fragment changes the dwords of its pixel only. -/
theorem mergeFragment_frame {address : MemoryAddressType}
    (hcolor : address ≠ colorDword pins fragment.x fragment.y)
    (hdepth : pins.depthEnable = true → address ≠ depthDword pins fragment.x fragment.y) :
    mergeFragment f pins m fragment address = m address := by
  unfold mergeFragment
  split_ifs with henable
  · rfl
  · rw [Function.update_of_ne hcolor, Function.update_of_ne (hdepth henable)]
  · rw [Function.update_of_ne hcolor]
  · rw [Function.update_of_ne hcolor]

/-! ## All fragments -/

variable {fragments : List ShadedFragment}

/-- The cell of a pixel keeps the nearest of its fragments. -/
theorem merged_cell (horder : DepthOrder f key depths) (hframe : FrameFits size pins height)
    (henable : pins.depthEnable = true)
    (hin : ∀ fragment ∈ fragments, InFrame pins height fragment.x fragment.y)
    (hz : ∀ fragment ∈ fragments, depths fragment.z) (hpixel : InFrame pins height x y)
    (hdepth : depths (m (depthDword pins x y))) :
    pixelCell pins x y (fragments.foldl (mergeFragment f pins) m) =
      nearest (fun cell => key cell.1) (pixelCell pins x y m)
        ((fragmentsAt x y fragments).map ShadedFragment.cell) := by
  induction fragments using List.reverseRecOn with
  | nil => rfl
  | append_singleton fragments fragment ih =>
    have ih := ih (fun fr h => hin fr (List.mem_append_left _ h))
      (fun fr h => hz fr (List.mem_append_left _ h))
    have hlast : fragment ∈ fragments ++ [fragment] := by simp
    -- the depth in the cell is the one it began with or that of a fragment
    have hkept : depths (fragments.foldl (mergeFragment f pins) m (depthDword pins x y)) := by
      have hmem := @nearest_mem _ _ _ (fun cell : Dword × Dword => key cell.1)
        (pixelCell pins x y m) ((fragmentsAt x y fragments).map ShadedFragment.cell)
      rw [← ih] at hmem
      obtain hcell | hmem := List.mem_cons.mp hmem
      · rw [show fragments.foldl (mergeFragment f pins) m (depthDword pins x y) =
          m (depthDword pins x y) from congrArg Prod.fst hcell]
        exact hdepth
      · obtain ⟨fr, hfr, hcell⟩ := List.mem_map.mp hmem
        rw [show fragments.foldl (mergeFragment f pins) m (depthDword pins x y) = fr.z from
          (congrArg Prod.fst hcell).symm]
        exact hz fr (List.mem_append_left _ (List.mem_filter.mp hfr).1)
    rw [List.foldl_append, List.foldl_cons, List.foldl_nil,
      mergeFragment_cell horder hframe henable (hin _ hlast) (hz _ hlast) hpixel hkept, ih,
      fragmentsAt_concat]
    by_cases hhere : fragment.x = x ∧ fragment.y = y
    · rw [if_pos hhere, if_pos hhere, List.map_append, List.map_singleton, nearest_concat]
    · rw [if_neg hhere, if_neg hhere, List.append_nil]

/-- Without the depth test the last fragment of a pixel is seen. -/
theorem merged_color (hframe : FrameFits size pins height) (henable : pins.depthEnable = false)
    (hin : ∀ fragment ∈ fragments, InFrame pins height fragment.x fragment.y)
    (hpixel : InFrame pins height x y) :
    fragments.foldl (mergeFragment f pins) m (colorDword pins x y) =
      (((fragmentsAt x y fragments).getLast?).map ShadedFragment.color).getD
        (m (colorDword pins x y)) := by
  induction fragments using List.reverseRecOn with
  | nil => rfl
  | append_singleton fragments fragment ih =>
    have ih := ih fun fr h => hin fr (List.mem_append_left _ h)
    rw [List.foldl_append, List.foldl_cons, List.foldl_nil,
      mergeFragment_color hframe henable (hin _ (by simp)) hpixel, ih, fragmentsAt_concat]
    by_cases hhere : fragment.x = x ∧ fragment.y = y
    · simp [hhere]
    · simp [hhere]

theorem merged_frame {address : MemoryAddressType}
    (hin : ∀ fragment ∈ fragments, InFrame pins height fragment.x fragment.y)
    (hother : ∀ x y, InFrame pins height x y → address ≠ colorDword pins x y ∧
      (pins.depthEnable = true → address ≠ depthDword pins x y)) :
    fragments.foldl (mergeFragment f pins) m address = m address := by
  induction fragments using List.reverseRecOn with
  | nil => rfl
  | append_singleton fragments fragment ih =>
    obtain ⟨hcolor, hdepth⟩ := hother fragment.x fragment.y (hin fragment (by simp))
    rw [List.foldl_append, List.foldl_cons, List.foldl_nil, mergeFragment_frame hcolor hdepth,
      ih fun fr h => hin fr (List.mem_append_left _ h)]

/-- What a memory array shows at an address. -/
def contents (rawMemory : Fin size → MemoryDataType) (address : MemoryAddressType) :
    MemoryDataType := load rawMemory (addressIndex address)

variable (key) in
/-- The image of some fragments. With the depth test the cell of a pixel is the first of
    the nearest among what it was and its fragments (`cell`): its depth is the least
    (`least`), and its color that of the first fragment with this depth, unless nothing is
    nearer than what it was (`first`). Without the test the color is that of the last
    fragment. Nothing else changes. -/
structure Image (pins : OutputMergerPins) (height : Nat) (fragments : List ShadedFragment)
    (initial final : Fin size → MemoryDataType) : Prop where
  cell : pins.depthEnable = true → ∀ x y, InFrame pins height x y →
    pixelCell pins x y (contents final) =
      nearest (fun cell => key cell.1) (pixelCell pins x y (contents initial))
        ((fragmentsAt x y fragments).map ShadedFragment.cell)
  least : pins.depthEnable = true → ∀ x y, InFrame pins height x y →
    key (contents final (depthDword pins x y)) ≤ key (contents initial (depthDword pins x y)) ∧
      ∀ fragment ∈ fragmentsAt x y fragments,
        key (contents final (depthDword pins x y)) ≤ key fragment.z
  first : pins.depthEnable = true → ∀ x y, InFrame pins height x y →
    (pixelCell pins x y (contents final) = pixelCell pins x y (contents initial) ∧
      ∀ fragment ∈ fragmentsAt x y fragments,
        key (contents initial (depthDword pins x y)) ≤ key fragment.z) ∨
      ∃ before fragment after, fragmentsAt x y fragments = before ++ fragment :: after ∧
        pixelCell pins x y (contents final) = (fragment.z, fragment.color) ∧
        key fragment.z < key (contents initial (depthDword pins x y)) ∧
        (∀ earlier ∈ before, key fragment.z < key earlier.z) ∧
        ∀ later ∈ after, key fragment.z ≤ key later.z
  color : pins.depthEnable = false → ∀ x y, InFrame pins height x y →
    contents final (colorDword pins x y) =
      (((fragmentsAt x y fragments).getLast?).map ShadedFragment.color).getD
        (contents initial (colorDword pins x y))
  rest : ∀ i : Fin size, (∀ x y, InFrame pins height x y → addressIndex (colorDword pins x y) ≠ i ∧
    (pins.depthEnable = true → addressIndex (depthDword pins x y) ≠ i)) → final i = initial i

/-- The least depth is the one of the cell. -/
theorem least_of_cell {initial final : Fin size → MemoryDataType}
    (hcell : pixelCell pins x y (contents final) =
      nearest (fun cell => key cell.1) (pixelCell pins x y (contents initial))
        ((fragmentsAt x y fragments).map ShadedFragment.cell)) :
    key (contents final (depthDword pins x y)) ≤ key (contents initial (depthDword pins x y)) ∧
      ∀ fragment ∈ fragmentsAt x y fragments,
        key (contents final (depthDword pins x y)) ≤ key fragment.z := by
  have hle : ∀ cell ∈ pixelCell pins x y (contents initial) ::
      (fragmentsAt x y fragments).map ShadedFragment.cell,
      key (contents final (depthDword pins x y)) ≤ key cell.1 := by
    intro cell hmem
    have hnearest := @nearest_le _ _ _ (fun cell : Dword × Dword => key cell.1) _ _ _ hmem
    rw [← hcell] at hnearest
    exact hnearest
  refine ⟨hle _ List.mem_cons_self, fun fragment hfragment => ?_⟩
  exact hle fragment.cell (List.mem_cons_of_mem _ (List.mem_map_of_mem hfragment))

/-- The cell of a pixel, from its fragments. -/
theorem first_of_cell {initial final : Fin size → MemoryDataType}
    (hcell : pixelCell pins x y (contents final) =
      nearest (fun cell => key cell.1) (pixelCell pins x y (contents initial))
        ((fragmentsAt x y fragments).map ShadedFragment.cell)) :
    (pixelCell pins x y (contents final) = pixelCell pins x y (contents initial) ∧
      ∀ fragment ∈ fragmentsAt x y fragments,
        key (contents initial (depthDword pins x y)) ≤ key fragment.z) ∨
      ∃ before fragment after, fragmentsAt x y fragments = before ++ fragment :: after ∧
        pixelCell pins x y (contents final) = (fragment.z, fragment.color) ∧
        key fragment.z < key (contents initial (depthDword pins x y)) ∧
        (∀ earlier ∈ before, key fragment.z < key earlier.z) ∧
        ∀ later ∈ after, key fragment.z ≤ key later.z := by
  rw [hcell]
  obtain ⟨hsame, hall⟩ | ⟨before, cell, after, hsplit, hfirst, hnearer, hbefore, hafter⟩ :=
    @nearest_first _ _ _ (fun cell : Dword × Dword => key cell.1) (pixelCell pins x y (contents initial))
      ((fragmentsAt x y fragments).map ShadedFragment.cell)
  · refine .inl ⟨hsame, fun fragment hfragment => ?_⟩
    exact hall fragment.cell (List.mem_map_of_mem hfragment)
  · obtain ⟨before, rest, hfragments, rfl, hrest⟩ := List.map_eq_append_iff.mp hsplit
    obtain ⟨fragment, after, rfl, rfl, rfl⟩ := List.map_eq_cons_iff.mp hrest
    refine .inr ⟨before, fragment, after, hfragments, hfirst, hnearer, fun earlier he => ?_,
      fun later hl => ?_⟩
    · exact hbefore earlier.cell (List.mem_map_of_mem he)
    · exact hafter later.cell (List.mem_map_of_mem hl)

/-- An array that holds what the fragments make of another one shows their image. -/
theorem image_merged {initial final : Fin size → MemoryDataType}
    (hframe : FrameFits size pins height)
    (hin : ∀ fragment ∈ fragments, InFrame pins height fragment.x fragment.y)
    (horder : pins.depthEnable = true → DepthOrder f key depths)
    (hz : pins.depthEnable = true → ∀ fragment ∈ fragments, depths fragment.z)
    (hdepth : pins.depthEnable = true → ∀ x y, InFrame pins height x y →
      depths (contents initial (depthDword pins x y)))
    (hholds : Holds final (fragments.foldl (mergeFragment f pins) (contents initial)))
    (hunaddressed : ∀ i : Fin size, (∀ address, ValidAddress size address →
      addressIndex address ≠ i) → final i = initial i) :
    Image key pins height fragments initial final := by
  have hcolor : ∀ x y, InFrame pins height x y → contents final (colorDword pins x y) =
      fragments.foldl (mergeFragment f pins) (contents initial) (colorDword pins x y) :=
    fun x y hpixel => hholds _ (pixelDword_valid hframe.color hpixel.1 hpixel.2)
  have hcell : pins.depthEnable = true → ∀ x y, InFrame pins height x y →
      pixelCell pins x y (contents final) =
        nearest (fun cell => key cell.1) (pixelCell pins x y (contents initial))
          ((fragmentsAt x y fragments).map ShadedFragment.cell) := by
    intro henable x y hpixel
    rw [← merged_cell (horder henable) hframe henable hin (hz henable) hpixel
      (hdepth henable x y hpixel)]
    exact Prod.ext (hholds _ (pixelDword_valid (hframe.depth henable) hpixel.1 hpixel.2))
      (hcolor x y hpixel)
  refine ⟨hcell, fun henable x y hpixel => least_of_cell (hcell henable x y hpixel),
    fun henable x y hpixel => first_of_cell (hcell henable x y hpixel),
    fun henable x y hpixel => ?_, fun i hother => ?_⟩
  · rw [hcolor x y hpixel]
    exact merged_color hframe henable hin hpixel
  · -- an element that has an address is one of the merged memory, which the fragments leave
    by_cases haddressed : ∀ address, ValidAddress size address → addressIndex address ≠ i
    · exact hunaddressed i haddressed
    · push Not at haddressed
      obtain ⟨address, hvalid, hindex⟩ := haddressed
      have hsame := hholds address hvalid
      rw [merged_frame hin] at hsame
      · unfold contents load at hsame
        simpa only [hindex, i.isLt, dif_pos, Fin.eta] using hsame
      · intro x y hpixel
        obtain ⟨hcolorNe, hdepthNe⟩ := hother x y hpixel
        constructor
        · rintro rfl
          exact hcolorNe hindex
        · rintro henable rfl
          exact hdepthNe henable hindex

/-- With one depth for each fragment of a pixel, the order of the fragments does not show. -/
theorem Image.perm {fragments' : List ShadedFragment} {initial final final' : Fin size → MemoryDataType}
    (h : Image key pins height fragments initial final)
    (h' : Image key pins height fragments' initial final') (henable : pins.depthEnable = true)
    (hperm : fragments.Perm fragments')
    (hdistinct : ∀ x y, InFrame pins height x y →
      ((fragmentsAt x y fragments).map fun fragment => key fragment.z).Nodup) :
    final = final' := by
  -- the cells agree, and outside of the buffers both arrays are as before
  have hcell : ∀ x y, InFrame pins height x y →
      pixelCell pins x y (contents final) = pixelCell pins x y (contents final') := by
    intro x y hpixel
    rw [h.cell henable x y hpixel, h'.cell henable x y hpixel]
    apply nearest_perm ((hperm.filter _).map _)
    rw [List.map_map]
    exact hdistinct x y hpixel
  have hshown : ∀ {i : Fin size} {address : MemoryAddressType}, addressIndex address = i →
      contents final address = contents final' address → final i = final' i := by
    intro i address hindex hsame
    unfold contents load at hsame
    simpa only [hindex, i.isLt, dif_pos, Fin.eta] using hsame
  funext i
  by_cases hother : ∀ x y, InFrame pins height x y → addressIndex (colorDword pins x y) ≠ i ∧
    (pins.depthEnable = true → addressIndex (depthDword pins x y) ≠ i)
  · rw [h.rest i hother, h'.rest i hother]
  · push Not at hother
    obtain ⟨x, y, hpixel, hbuffer⟩ := hother
    by_cases hcolor : addressIndex (colorDword pins x y) = i
    · exact hshown hcolor (congrArg Prod.snd (hcell x y hpixel))
    · exact hshown (hbuffer hcolor).2 (congrArg Prod.fst (hcell x y hpixel))

end

end PicoGpu
