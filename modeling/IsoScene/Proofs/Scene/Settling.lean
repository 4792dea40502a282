import IsoScene.Proofs.Scene.Geometry
import Mathlib.Logic.Function.Iterate

/-! # Where the geometric pass leaves a tile

Displacements, directions and toggles do not meddle with one another: each of the three changes
fields of its own, and all other variants change nothing. So the outcome of a pass can be read off
its variants, one kind at a time (`applyVariants_eq`). After the pass no geometric variant is left,
and a second one changes nothing.

* `Variant.offset?` — the displacement that a variant asks for.
* `Tile.settled` — a tile after the pass.
* `Tile.resolveGeometry_closed` — the outcome of the pass.
-/

namespace IsoScene

/-- How far a tile is moved. -/
structure Offset where
  dx : Binary64
  dy : Binary64
  dz : Binary64

namespace Variant

def isDisplacement (v : Variant) : Bool := v.name = "displace" ∨ v.name = "disp"

/-- What the arguments stand for as numbers. Blanks around a number do not count. -/
def numbers (v : Variant) : List (Option Binary64) :=
  v.arguments.map fun s => Binary64.ofDecimal? (Text.trim s.toList)

/-- The displacement that the variant asks for, if it has exactly three arguments and they are
finite numbers. -/
def offset? (v : Variant) : Option Offset :=
  if v.isDisplacement then
    match v.numbers with
    | [some dx, some dy, some dz] =>
      if dx.isFinite && dy.isFinite && dz.isFinite then some ⟨dx, dy, dz⟩ else none
    | _ => none
  else none

/-- The variant should displace its tile, but it does not say how far. -/
def isVague (v : Variant) : Bool := v.isDisplacement && v.offset?.isNone

/-- What is wrong with a displacement. -/
def displacementFault (v : Variant) : ArgumentError :=
  match v.numbers with
  | [some _, some _, some _] => .displacementNotFinite
  | [_, _, _] => .displacementNotNumeric
  | _ => .displacementArity

def direction? (v : Variant) : Option Nat := GeometricEffect.orientation? v.name

def isToggle (v : Variant) : Bool := v.name = "unit"

def isGeometric (v : Variant) : Bool := v.name ∈ geometricNames

/-- The effect that the variant asks for, if it can be read and asks for one. -/
def geometricEffect? (v : Variant) : Option GeometricEffect :=
  if v.isDisplacement then v.offset?.map fun offset => .displace offset.dx offset.dy offset.dz
  else if v.isToggle then some .toggleUnit
  else v.direction?.map .face

end Variant

namespace Tile

/-- The tile after all the displacements, directions and toggles among some variants. -/
def movedBy (tile : Tile) (variants : List Variant) : Tile :=
  let offsets := variants.filterMap Variant.offset?
  { tile with
    position :=
      { tile.position with
        x := offsets.foldl (fun x offset => x + offset.dx) tile.position.x
        y := offsets.foldl (fun y offset => y + offset.dy) tile.position.y
        z := offsets.foldl (fun z offset => z + offset.dz) tile.position.z }
    orientation := (variants.filterMap Variant.direction?).getLastD tile.orientation
    metadata :=
      { tile.metadata with unit := not^[variants.countP Variant.isToggle] tile.metadata.unit } }

/-- The tile after its own variants, of which the others are left. -/
def settled (tile : Tile) : Tile :=
  { tile.movedBy tile.variants with variants := tile.variants.filter (!·.isGeometric) }

end Tile

/-! ## One variant -/

namespace GeometricEffect

theorem parseDisplace_eq {v : Variant} (displaces : v.isDisplacement) :
    parseDisplace v.arguments = match v.offset? with
      | some offset => .ok (displace offset.dx offset.dy offset.dz)
      | none => .error (.argument v.displacementFault) := by
  rw [Variant.offset?, if_pos displaces, Variant.displacementFault, Variant.numbers]
  match v.arguments with
  | [] | [_] | [_, _] | _ :: _ :: _ :: _ :: _ => simp [parseDisplace]
  | [x, y, z] =>
    simp only [parseDisplace, readOffset, List.map_cons, List.map_nil]
    -- The first argument that is no number decides. Without one, all three must be finite.
    cases Binary64.ofDecimal? (Text.trim x.toList) with
    | none => simp
    | some dx =>
      cases Binary64.ofDecimal? (Text.trim y.toList) with
      | none => simp
      | some dy =>
        cases Binary64.ofDecimal? (Text.trim z.toList) with
        | none => simp
        | some dz =>
          simp only [ok_bind]
          cases dx.isFinite && dy.isFinite && dz.isFinite <;> rfl

theorem parse_eq (v : Variant) :
    parse v =
      if v.isVague then .error (.argument v.displacementFault) else .ok v.geometricEffect? := by
  rw [parse, Variant.isVague, Variant.geometricEffect?]
  by_cases displaces : v.isDisplacement
  · rw [if_pos (by simpa [Variant.isDisplacement] using displaces), parseDisplace_eq displaces]
    cases v.offset? <;> simp [displaces, Except.map]
  · rw [if_neg (by simpa [Variant.isDisplacement] using displaces)]
    by_cases toggles : v.name = "unit" <;>
      simp [displaces, toggles, Variant.isToggle, Variant.direction?]

end GeometricEffect

namespace Variant

variable {v : Variant}

theorem isGeometric_eq :
    v.isGeometric = (v.isDisplacement || v.isToggle || v.direction?.isSome) := by
  rw [Bool.eq_iff_iff]
  simp only [isGeometric, geometricNames, isDisplacement, isToggle, direction?,
    GeometricEffect.orientation?]
  split <;> simp_all [or_assoc]

theorem isGeometric_eq_isSome_geometricEffect? (clear : v.isVague = false) :
    v.isGeometric = v.geometricEffect?.isSome := by
  rw [isGeometric_eq, geometricEffect?]
  rw [isVague] at clear
  cases displaces : v.isDisplacement <;> cases toggles : v.isToggle <;> simp_all

/-- A variant is of one kind at most. -/
theorem kinds (v : Variant) :
    v.isDisplacement ∧ v.isToggle = false ∧ v.direction? = none ∨
      v.isDisplacement = false ∧ v.isToggle ∧ v.direction? = none ∨
      v.isDisplacement = false ∧ v.isToggle = false := by
  simp only [isDisplacement, isToggle, direction?, decide_eq_true_iff, decide_eq_false_iff_not]
  by_cases displaces : v.name = "displace" ∨ v.name = "disp"
  · left
    obtain named | named := displaces <;> simp [named, GeometricEffect.orientation?]
  · by_cases toggles : v.name = "unit"
    · simp [toggles, GeometricEffect.orientation?]
    · simp [displaces, toggles]

end Variant

/-! ## All variants -/

namespace Tile

variable (tile : Tile)

theorem movedBy_append (before after : List Variant) :
    tile.movedBy (before ++ after) = (tile.movedBy before).movedBy after := by
  -- Of the toggles only the number counts, so those of the second part may be put in front.
  have toggles (start : Bool) :
      not^[(before ++ after).countP Variant.isToggle] start =
        not^[after.countP Variant.isToggle] (not^[before.countP Variant.isToggle] start) := by
    rw [List.countP_append, Nat.add_comm, Function.iterate_add_apply]
  simp [movedBy, toggles, List.getLastD_eq_getLast?, -List.countP_append]

theorem movedBy_cons (v : Variant) (rest : List Variant) :
    tile.movedBy (v :: rest) = (v.geometricEffect?.elim tile tile.apply).movedBy rest := by
  have first : tile.movedBy [v] = v.geometricEffect?.elim tile tile.apply := by
    -- The variant is of one kind at most, so the fields of the other kinds keep their values.
    obtain ⟨displaces, toggles, direction⟩ | ⟨displaces, toggles, direction⟩ |
      ⟨displaces, toggles⟩ := v.kinds
    · cases offset : v.offset? <;>
        simp [movedBy, Variant.geometricEffect?, displaces, toggles, direction, offset, apply]
    · simp [movedBy, Variant.geometricEffect?, Variant.offset?, displaces, toggles, direction,
        apply]
    · cases direction : v.direction? <;>
        simp [movedBy, Variant.geometricEffect?, Variant.offset?, displaces, toggles, direction,
          apply]
  rw [← List.singleton_append, movedBy_append, first]

theorem applyVariants_eq (variants : List Variant) :
    tile.applyVariants variants = match variants.find? Variant.isVague with
      | some v => .error (.argument v.displacementFault)
      | none => .ok (tile.movedBy variants, variants.filter (!·.isGeometric)) := by
  induction variants generalizing tile with
  | nil => rfl
  | cons v rest ih =>
    rw [applyVariants, GeometricEffect.parse_eq, movedBy_cons]
    cases vague : v.isVague with
    | true => simp [vague]
    | false =>
      have geometric := Variant.isGeometric_eq_isSome_geometricEffect? vague
      rw [List.find?_cons_of_neg (by simp [vague])]
      cases effect : v.geometricEffect? with
      | some effect =>
        rw [effect] at geometric
        simp [geometric, ih]
      | none =>
        rw [effect] at geometric
        -- A variant that is kept neither fails nor moves the tile.
        simp only [Bool.false_eq_true, if_false, ok_bind, ih]
        cases rest.find? Variant.isVague <;> simp [geometric]

theorem resolveGeometry_eq :
    tile.resolveGeometry = match tile.variants.find? Variant.isVague with
      | some v => .error (.argument v.displacementFault)
      | none => .ok tile.settled := by
  rw [resolveGeometry, applyVariants_eq]
  cases tile.variants.find? Variant.isVague <;> rfl

/-! ## After the pass -/

theorem not_geometric_of_mem_filter {v : Variant} {variants : List Variant}
    (left : v ∈ variants.filter (!·.isGeometric)) : v.name ∉ geometricNames := by
  simpa [Variant.isGeometric] using (List.mem_filter.mp left).2

/-- The variants that a pass leaves are read without fault, and they do not move a tile again. -/
theorem movedBy_filter (variants : List Variant) :
    (variants.filter (!·.isGeometric)).find? Variant.isVague = none ∧
      tile.movedBy (variants.filter (!·.isGeometric)) = tile := by
  have kept := @applyVariants_of_not_geometric tile (variants.filter (!·.isGeometric))
    fun _ => not_geometric_of_mem_filter
  rw [applyVariants_eq] at kept
  cases vague : (variants.filter (!·.isGeometric)).find? Variant.isVague with
  | some v => simp [vague] at kept
  | none =>
    simp only [vague, Except.ok.injEq, Prod.mk.injEq] at kept
    exact ⟨rfl, kept.1⟩

theorem resolveGeometry_settled : tile.settled.resolveGeometry = .ok tile.settled :=
  resolveGeometry_of_not_geometric fun _ => not_geometric_of_mem_filter

theorem settled_append (before after : List Variant) :
    settled { tile with variants := before ++ after } =
      let moved := settled { tile with variants := before }
      settled { moved with variants := moved.variants ++ after } := by
  -- The second pass goes through the leftovers of the first once more.
  have stays := ((tile.movedBy before).movedBy_filter before).2
  calc settled { tile with variants := before ++ after }
    _ = { tile.movedBy (before ++ after) with
          variants := (before ++ after).filter (!·.isGeometric) } := rfl
    _ = { (tile.movedBy before).movedBy (before.filter (!·.isGeometric) ++ after) with
          variants := (before.filter (!·.isGeometric) ++ after).filter (!·.isGeometric) } := by
      rw [movedBy_append, movedBy_append, stays]
      simp

theorem resolveGeometry_append (before after : List Variant) :
    resolveGeometry { tile with variants := before ++ after } =
      resolveGeometry { tile with variants := before } >>= fun moved =>
        resolveGeometry { moved with variants := moved.variants ++ after } := by
  simp only [resolveGeometry_eq, List.find?_append]
  cases before.find? Variant.isVague with
  | some v => rfl
  | none =>
    have clear := (tile.movedBy_filter before).1
    simp only [Option.none_or, ok_bind]
    rw [settled_append]
    simp only [settled, clear, Option.none_or]

/-- A pass goes wrong with the first displacement that is not given by three finite numbers. Else
every coordinate is the sum of the displacements in their order, the last direction counts, every
toggle counts, and the other variants stay. So a second pass changes nothing, and the pass over a
list is the pass over its front and then, with what this leaves, over the rest. -/
theorem resolveGeometry_closed :
    (tile.resolveGeometry = match tile.variants.find? Variant.isVague with
      | some v => .error (.argument v.displacementFault)
      | none => .ok tile.settled) ∧
    ((∃ e, tile.resolveGeometry = .error e) ↔
      ∃ v ∈ tile.variants, v.isDisplacement ∧ v.offset? = none) ∧
    (∀ moved, tile.resolveGeometry = .ok moved → moved.resolveGeometry = .ok moved) ∧
    ∀ before after : List Variant,
      resolveGeometry { tile with variants := before ++ after } =
        resolveGeometry { tile with variants := before } >>= fun moved =>
          resolveGeometry { moved with variants := moved.variants ++ after } := by
  refine ⟨tile.resolveGeometry_eq, ?_, ?_, tile.resolveGeometry_append⟩
  · rw [resolveGeometry_eq]
    cases vague : tile.variants.find? Variant.isVague with
    | some v =>
      have named := List.find?_some vague
      have among := List.mem_of_find?_eq_some vague
      simp only [Variant.isVague, Bool.and_eq_true, Option.isNone_iff_eq_none] at named
      exact ⟨fun _ => ⟨v, among, named⟩, fun _ => ⟨_, rfl⟩⟩
    | none =>
      rw [List.find?_eq_none] at vague
      simpa [Variant.isVague] using vague
  · intro moved resolved
    rw [resolveGeometry_eq] at resolved
    split at resolved
    · cases resolved
    · obtain rfl := Except.ok.inj resolved
      exact tile.resolveGeometry_settled

/-- The two great displacements swallow the place at which the tile has started. -/
theorem resolveGeometry_closed_mixed :
    let gray : Variant := ⟨"gs", []⟩
    let outline : Variant := ⟨"m", ["2"]⟩
    let toggle : Variant := ⟨"unit", []⟩
    let tile : Tile := .new "baba" ⟨.ofNat 1, .ofNat 2, .ofNat 0, .ofNat 7⟩
      [gray, ⟨"displace", ["1e16", " 2 ", "3"]⟩, ⟨"r", []⟩, toggle, outline, toggle,
        ⟨"disp", ["-1e16", "0.5", "0"]⟩, ⟨"u", []⟩, toggle] .text
    let moved : Tile :=
      { tile with
        position := ⟨.ofNat 0, .ofRatio false 9 2, .ofNat 3, .ofNat 7⟩
        orientation := 2
        variants := [gray, outline]
        metadata := { TileMetadata.text with unit := true } }
    tile.resolveGeometry = .ok moved ∧ moved.resolveGeometry = .ok moved ∧
      resolveGeometry
          { tile with variants := [⟨"disp", ["1", "nan", "2"]⟩, ⟨"disp", ["1"]⟩] } =
        .error (.argument .displacementNotFinite) := by
  intro gray outline toggle tile moved
  obtain ⟨closed, -, again, -⟩ := tile.resolveGeometry_closed
  have resolved : tile.resolveGeometry = .ok moved := by
    rw [closed]
    decide +kernel
  refine ⟨resolved, again moved resolved, ?_⟩
  rw [(resolveGeometry_closed _).1]
  decide +kernel

end Tile

end IsoScene
