import IsoScene.Proofs.Color.Channels
import IsoScene.Proofs.Effect.Darkest
import IsoScene.Proofs.Effect.Surround

/-! # Effects that recolour an image

Cleaning, the two tones of a noun and shades of gray recolour each cell where it is. The first two
look at all visible colours before. What they look for they find again afterwards: a cleaned channel
has 255 as its greatest value, if it has any but zero (`brightest_clean`), and the darkest of two
tones is black (`darkest_noun`). So doing it again changes nothing.
-/

namespace IsoScene.Raster

/-! ## Cells and colours of what is recoloured -/

/-- Some cell has the first colour in the image and the second one in the result. -/
def Becomes (image result : Image) (c d : Rgba) : Prop :=
  ∃ x y, image.get? x y = some c ∧ result.get? x y = some d

/-- An effect that does nothing when it is repeated, and changes neither the size of the image nor
where it shows. -/
structure KeepsShape (effect : Image → Image) (image : Image) : Prop where
  again : effect (effect image) = effect image
  width : (effect image).width = image.width
  height : (effect image).height = image.height
  shown : (effect image).shown = image.shown

/-- The cells where the image does not show stay what they are. -/
def LeavesHidden (image result : Image) : Prop :=
  ∀ x y c, image.get? x y = some c → ¬ c.isVisible → result.get? x y = some c

section
variable {image : Image} {f : Rgba → Rgba} {c d : Rgba}

theorem shown_map (keeps : ∀ c ∈ image.toList, (f c).isVisible = c.isVisible) :
    (image.map f).shown = image.shown := by
  ext p
  rw [shown, shown, Set.mem_ofPred_eq, Set.mem_ofPred_eq, sample_eq_at?, sample_eq_at?, at?, at?]
  split
  · rw [get?_map]
    cases found : image.get? p.1.toNat p.2.toNat with
    | none => rfl
    | some c =>
      rw [Option.map_some, Option.getD_some, Option.getD_some,
        keeps c (mem_toList_iff.mpr ⟨_, _, found⟩)]
  · rfl

theorem get?_mapVisible (f : Rgba → Rgba) (image : Image) (x y : Nat) :
    (image.mapVisible f).get? x y =
      (image.get? x y).map fun c => if c.isVisible then f c else c :=
  get?_map ..

/-- What is hidden stays as it is, and so it stays hidden. -/
theorem isVisible_of_keeps (keeps : ∀ c ∈ image.visible, (f c).isVisible)
    (member : c ∈ image.toList) : (if c.isVisible then f c else c).isVisible = c.isVisible := by
  split
  · next seen => rw [keeps c (List.mem_filter.mpr ⟨member, seen⟩), seen]
  · rfl

theorem shown_mapVisible (keeps : ∀ c ∈ image.visible, (f c).isVisible) :
    (image.mapVisible f).shown = image.shown :=
  shown_map fun _ => isVisible_of_keeps keeps

theorem visible_mapVisible (keeps : ∀ c ∈ image.visible, (f c).isVisible) :
    (image.mapVisible f).visible = image.visible.map f := by
  have cells : (image.mapVisible f).toList =
      image.toList.map fun c => if c.isVisible then f c else c := Array.toList_map
  have alike : ∀ c ∈ image.toList,
      (Rgba.isVisible ∘ fun c => if c.isVisible then f c else c) c = c.isVisible :=
    fun _ => isVisible_of_keeps keeps
  rw [visible, cells, List.filter_map, List.filter_congr alike]
  exact List.map_congr_left fun c member => if_pos (List.mem_filter.mp member).2

theorem leavesHidden_mapVisible (image : Image) (f : Rgba → Rgba) :
    image.LeavesHidden (image.mapVisible f) := by
  intro x y c found hidden
  rw [get?_mapVisible, found, Option.map_some, if_neg hidden]

theorem Becomes.mem_visible {result : Image} (turned : image.Becomes result c d)
    (seen : c.isVisible) : c ∈ image.visible := by
  obtain ⟨x, y, before, -⟩ := turned
  exact mem_visible_iff.mpr ⟨seen, x, y, before⟩

theorem Becomes.eq_of_mapVisible (turned : image.Becomes (image.mapVisible f) c d)
    (seen : c.isVisible) : d = f c := by
  obtain ⟨x, y, before, after⟩ := turned
  rw [get?_mapVisible, before, Option.map_some, if_pos seen, Option.some.injEq] at after
  exact after.symm

theorem mapVisible_eq_self (fixed : ∀ c ∈ image.visible, f c = c) : image.mapVisible f = image := by
  refine ext_get? rfl rfl fun x y => ?_
  rw [get?_mapVisible]
  cases found : image.get? x y with
  | none => rfl
  | some c =>
    rw [Option.map_some]
    split
    · next seen => rw [fixed c (mem_visible_iff.mpr ⟨seen, x, y, found⟩)]
    · rfl

end

/-! ## Cleaning -/

/-- Each visible channel is stretched: none falls, the order between cells stays, and the greatest
value is 255 unless all are zero. -/
structure IsStretched (image result : Image) : Prop where
  raised : ∀ c d, image.Becomes result c d → c.isVisible → ∀ k, c.channel k ≤ d.channel k
  ordered : ∀ c d c' d', image.Becomes result c d → image.Becomes result c' d' →
    c.isVisible → c'.isVisible → ∀ k, d.channel k ≤ d'.channel k ↔ c.channel k ≤ c'.channel k
  full : ∀ k, (∃ c ∈ image.visible, c.channel k ≠ 0) → ∃ d ∈ result.visible, d.channel k = 255

/-- What cleaning makes of a visible colour. -/
def stretch (image : Image) : Rgba → Rgba := Rgba.zipWith stretchChannel image.brightest

theorem channel_stretch (image : Image) (c : Rgba) (k : Channel) :
    (image.stretch c).channel k = stretchChannel (image.brightest.channel k) (c.channel k) :=
  Rgba.channel_zipWith ..

theorem toNat_foldl_max (colors : List Rgba) (start : Rgba) (k : Channel) :
    ((colors.foldl (Rgba.zipWith max) start).channel k).toNat =
      (colors.map fun c => (c.channel k).toNat).foldl max (start.channel k).toNat := by
  induction colors generalizing start with
  | nil => rfl
  | cons c colors ih =>
    rw [List.foldl_cons, ih, Rgba.channel_zipWith, UInt8.toNat_max, List.map_cons, List.foldl_cons]

section
variable {image : Image} {c d : Rgba} {k : Channel}

theorem max?_channel (image : Image) (k : Channel) :
    (0 :: image.visible.map fun c => (c.channel k).toNat).max? =
      some (image.brightest.channel k).toNat := by
  have start : (Rgba.transparent.channel k).toNat = 0 := by cases k <;> rfl
  rw [List.max?_cons', brightest, toNat_foldl_max, start]

theorem channel_le_brightest (member : c ∈ image.visible) (k : Channel) :
    c.channel k ≤ image.brightest.channel k := by
  have greatest := (List.max?_eq_some_iff.mp (max?_channel image k)).2
  exact UInt8.le_iff_toNat_le.mpr
    (greatest _ (List.mem_cons_of_mem _ (List.mem_map_of_mem member)))

theorem exists_brightest (some : image.brightest.channel k ≠ 0) :
    ∃ c ∈ image.visible, c.channel k = image.brightest.channel k := by
  have attained := (List.max?_eq_some_iff.mp (max?_channel image k)).1
  obtain none | member := List.mem_cons.mp attained
  · exact absurd (UInt8.toNat_inj.mp none) some
  · obtain ⟨c, member, same⟩ := List.mem_map.mp member
    exact ⟨c, member, UInt8.toNat_inj.mp same⟩

theorem brightest_eq_zero_iff :
    image.brightest.channel k = 0 ↔ ∀ c ∈ image.visible, c.channel k = 0 := by
  constructor
  · intro none c member
    have below := channel_le_brightest member k
    rw [none] at below
    exact UInt8.le_zero_iff.mp below
  · intro none
    by_contra some
    obtain ⟨c, member, same⟩ := exists_brightest some
    exact some (same.symm.trans (none c member))

theorem le_channel_stretch (member : c ∈ image.visible) (k : Channel) :
    c.channel k ≤ (image.stretch c).channel k := by
  rw [channel_stretch]
  exact le_stretchChannel (channel_le_brightest member k)

theorem isVisible_stretch (member : c ∈ image.visible) : (image.stretch c).isVisible := by
  have raised : c.alpha ≤ (image.stretch c).alpha := le_channel_stretch member .alpha
  refine bne_iff_ne.mpr fun hidden => ?_
  rw [hidden] at raised
  exact bne_iff_ne.mp (mem_visible_iff.mp member).1 (UInt8.le_zero_iff.mp raised)

theorem mem_visible_clean_iff :
    d ∈ image.clean.visible ↔ ∃ c ∈ image.visible, image.stretch c = d := by
  have listed : image.clean.visible = image.visible.map image.stretch :=
    visible_mapVisible fun c => isVisible_stretch
  rw [listed, List.mem_map]

theorem brightest_clean (image : Image) (k : Channel) :
    image.clean.brightest.channel k = 0 ∨ image.clean.brightest.channel k = 255 := by
  by_cases none : image.brightest.channel k = 0
  · -- A channel that is zero everywhere stays as it is.
    refine .inl (brightest_eq_zero_iff.mpr fun d member => ?_)
    obtain ⟨c, before, rfl⟩ := mem_visible_clean_iff.mp member
    rw [channel_stretch, none, stretchChannel_zero]
    exact brightest_eq_zero_iff.mp none c before
  · -- The greatest value becomes 255, and no value is above that.
    obtain ⟨c, member, same⟩ := exists_brightest none
    have full := channel_le_brightest (mem_visible_clean_iff.mpr ⟨c, member, rfl⟩) k
    rw [channel_stretch, same, stretchChannel_self none] at full
    exact .inr (UInt8.le_antisymm (le_full _) full)

theorem stretch_clean (image : Image) (c : Rgba) : image.clean.stretch c = c := by
  refine Rgba.ext_channel fun k => ?_
  rw [channel_stretch]
  obtain none | full := brightest_clean image k
  · rw [none, stretchChannel_zero]
  · rw [full, stretchChannel_full]

theorem keepsShape_clean (image : Image) : KeepsShape clean image where
  again := mapVisible_eq_self fun c _ => stretch_clean image c
  width := rfl
  height := rfl
  shown := shown_mapVisible fun _ => isVisible_stretch

theorem isStretched_clean (image : Image) : image.IsStretched image.clean := by
  constructor
  · intro c d turned seen k
    have stretched : d = image.stretch c := turned.eq_of_mapVisible seen
    rw [stretched]
    exact le_channel_stretch (turned.mem_visible seen) k
  · intro c d c' d' turned turned' seen seen' k
    have stretched : d = image.stretch c := turned.eq_of_mapVisible seen
    have stretched' : d' = image.stretch c' := turned'.eq_of_mapVisible seen'
    rw [stretched, stretched', channel_stretch, channel_stretch]
    exact stretchChannel_le_iff (channel_le_brightest (turned.mem_visible seen) k)
      (channel_le_brightest (turned'.mem_visible seen') k)
  · rintro k ⟨c, member, some⟩
    have most : image.brightest.channel k ≠ 0 := fun none =>
      some (brightest_eq_zero_iff.mp none c member)
    obtain ⟨b, member, same⟩ := exists_brightest most
    refine ⟨_, mem_visible_clean_iff.mpr ⟨b, member, rfl⟩, ?_⟩
    rw [channel_stretch, same, stretchChannel_self most]

end

/-! ## Shades of gray -/

theorem keepsShape_grayscale (image : Image) : KeepsShape grayscale image where
  again := by
    refine ext_get? rfl rfl fun x y => ?_
    rw [grayscale, get?_map, grayscale, get?_map, Option.map_map]
    exact congrArg (Option.map · _) (funext gray_gray)
  width := rfl
  height := rfl
  shown := shown_map fun _ _ => rfl

/-! ## Two tones -/

section
variable {image : Image} {dark : Rgba}

/-- What the noun effect makes of a visible colour. -/
def tone (dark c : Rgba) : Rgba := if c = dark then Rgba.black else Rgba.white

theorem tone_cases (dark c : Rgba) :
    c = dark ∧ tone dark c = Rgba.black ∨ c ≠ dark ∧ tone dark c = Rgba.white := by
  rw [tone]
  split
  · next same => exact .inl ⟨same, rfl⟩
  · next apart => exact .inr ⟨apart, rfl⟩

theorem isVisible_tone (dark c : Rgba) : (tone dark c).isVisible := by
  obtain ⟨-, black⟩ | ⟨-, white⟩ := tone_cases dark c
  · rw [black]
    rfl
  · rw [white]
    rfl

theorem tone_black_tone (dark c : Rgba) : tone Rgba.black (tone dark c) = tone dark c := by
  obtain ⟨-, black⟩ | ⟨-, white⟩ := tone_cases dark c
  · rw [black]
    rfl
  · rw [white]
    rfl

theorem noun_of_darkest (found : image.darkest = some dark) :
    image.noun = image.mapVisible (tone dark) := by
  rw [noun, found]
  rfl

theorem noun_of_hidden (hidden : image.visible = []) : image.noun = image := by
  cases found : image.darkest with
  | none => rw [noun, found]
  | some dark => exact absurd hidden (List.ne_nil_of_mem (isDarkest_of_darkest found).occurs)

theorem exists_noun_eq (image : Image) : ∃ dark, image.noun = image.mapVisible (tone dark) := by
  by_cases hidden : image.visible = []
  · -- Without visible cells any colour will do.
    refine ⟨default, (noun_of_hidden hidden).trans (mapVisible_eq_self ?_).symm⟩
    simp [hidden]
  · obtain ⟨dark, found⟩ := exists_darkest hidden
    exact ⟨dark, noun_of_darkest found⟩

theorem mem_visible_noun_iff (found : image.darkest = some dark) {d : Rgba} :
    d ∈ image.noun.visible ↔ ∃ c ∈ image.visible, tone dark c = d := by
  rw [noun_of_darkest found, visible_mapVisible fun c _ => isVisible_tone dark c, List.mem_map]

theorem darkest_noun (visible : image.visible ≠ []) : image.noun.darkest = some Rgba.black := by
  obtain ⟨dark, found⟩ := exists_darkest visible
  have occurs : Rgba.black ∈ image.noun.visible :=
    (mem_visible_noun_iff found).mpr ⟨dark, (isDarkest_of_darkest found).occurs, if_pos rfl⟩
  obtain ⟨darkest, foundAgain⟩ := exists_darkest (List.ne_nil_of_mem occurs)
  obtain ⟨member, least, -, -⟩ := isDarkest_of_darkest foundAgain
  obtain ⟨c, -, rfl⟩ := (mem_visible_noun_iff found).mp member
  obtain ⟨-, black⟩ | ⟨-, white⟩ := tone_cases dark c
  · rw [foundAgain, black]
  · -- Black occurs, and white is brighter.
    have brighter := least Rgba.black occurs
    rw [white] at brighter
    exact absurd brighter (by decide)

theorem noun_noun (image : Image) : image.noun.noun = image.noun := by
  by_cases hidden : image.visible = []
  · rw [noun_of_hidden hidden, noun_of_hidden hidden]
  · obtain ⟨dark, found⟩ := exists_darkest hidden
    rw [noun_of_darkest (darkest_noun hidden)]
    refine mapVisible_eq_self fun d member => ?_
    obtain ⟨c, -, rfl⟩ := (mem_visible_noun_iff found).mp member
    exact tone_black_tone dark c

theorem keepsShape_noun (image : Image) : KeepsShape noun image := by
  obtain ⟨dark, recolored⟩ := exists_noun_eq image
  refine ⟨noun_noun image, ?_, ?_, ?_⟩
  · rw [recolored]
    rfl
  · rw [recolored]
    rfl
  · rw [recolored]
    exact shown_mapVisible fun c _ => isVisible_tone dark c

theorem leavesHidden_noun (image : Image) : image.LeavesHidden image.noun := by
  obtain ⟨dark, recolored⟩ := exists_noun_eq image
  rw [recolored]
  exact leavesHidden_mapVisible image _

/-- Each visible cell is opaque black or opaque white. It is black if its colour is the darkest one,
and there is one darkest colour. -/
structure IsTwoToned (image result : Image) : Prop where
  toned : ∀ c d, image.Becomes result c d → c.isVisible →
    d = Rgba.black ∧ image.IsDarkest c ∨ d = Rgba.white ∧ ¬ image.IsDarkest c
  one : image.visible ≠ [] → ∃! dark, image.IsDarkest dark

theorem isTwoToned_noun (image : Image) : image.IsTwoToned image.noun := by
  constructor
  · intro c d turned seen
    obtain ⟨dark, found⟩ := exists_darkest (List.ne_nil_of_mem (turned.mem_visible seen))
    have darkest := isDarkest_of_darkest found
    rw [noun_of_darkest found] at turned
    rw [turned.eq_of_mapVisible seen]
    obtain ⟨rfl, black⟩ | ⟨apart, white⟩ := tone_cases dark c
    · exact .inl ⟨black, darkest⟩
    · exact .inr ⟨white, fun another => apart (another.unique darkest)⟩
  · intro visible
    obtain ⟨dark, found⟩ := exists_darkest visible
    have darkest := isDarkest_of_darkest found
    exact ⟨dark, darkest, fun other another => another.unique darkest⟩

end

/-! ## Room for the sums and products -/

/-- What the effects compute with the visible colours of an image stays in the range of words, and
what they store in the range of bytes. -/
structure FitsWords (image : Image) : Prop where
  stretched : ∀ c ∈ image.visible, ∀ k,
    let value := c.channel k
    let most := image.brightest.channel k
    value.toNat * 255 < 2 ^ 32 ∧ value.toNat * 255 / most.toNat < 2 ^ 8 ∧
      (image.stretch c).channel k =
        if most = 0 then value else (value.toUInt32 * 255 / most.toUInt32).toUInt8
  compared : ∀ c, brightness c < 2 ^ 32 ∧
    brightness c = (c.red.toUInt32 + c.green.toUInt32 + c.blue.toUInt32).toNat
  averaged : ∀ c,
    let average := ((c.red.toUInt16 + c.green.toUInt16 + c.blue.toUInt16) / 3).toUInt8
    brightness c < 2 ^ 16 ∧ brightness c / 3 < 2 ^ 8 ∧
      gray c = ⟨average, average, average, c.alpha⟩

theorem fitsWords (image : Image) : image.FitsWords := by
  constructor
  · intro c member k value most
    have below : value ≤ most := channel_le_brightest member k
    have byte := value.toNat_lt
    refine ⟨by omega, stretched_lt below, ?_⟩
    rw [channel_stretch, stretchChannel_eq_word below]
  · intro c
    have bound := brightness_lt c
    exact ⟨by omega, brightness_eq_word c⟩
  · intro c average
    have bound := brightness_lt c
    exact ⟨by omega, by omega, gray_eq_word c⟩

/-- Cleaning, the noun effect and shades of gray do nothing when they are repeated, and keep the
size of an image and where it shows. The first two leave the other cells as they are. Cleaning
stretches each channel to its full range, and the noun effect turns the darkest colour into black
and the others into white. All sums and products fit into their words. -/
theorem recolorings_idempotent (image : Image) :
    (KeepsShape clean image ∧ KeepsShape noun image ∧ KeepsShape grayscale image) ∧
      (image.LeavesHidden image.clean ∧ image.LeavesHidden image.noun) ∧
      image.IsStretched image.clean ∧ image.IsTwoToned image.noun ∧ image.FitsWords :=
  ⟨⟨keepsShape_clean image, keepsShape_noun image, keepsShape_grayscale image⟩,
    ⟨leavesHidden_mapVisible image _, leavesHidden_noun image⟩,
    isStretched_clean image, isTwoToned_noun image, fitsWords image⟩

/-- Two colours are as dark and as frequent. The one in the upper row becomes black. -/
example :
    let upper : Rgba := ⟨10, 20, 30, 7⟩
    let lower : Rgba := ⟨30, 20, 10, 7⟩
    let image : Image := ofFn 2 2 fun x y =>
      if x = y then Rgba.transparent else if y = 0 then upper else lower
    image.noun.toList = [Rgba.transparent, Rgba.black, Rgba.white, Rgba.transparent] := by
  cbv

end IsoScene.Raster
