import Mathlib.Data.List.Basic
import Mathlib.Logic.Function.Basic

/-! # Painting

A picture gives every position a colour.  A layer gives some positions a colour and lets
the picture through at the others.

* `paint`, `paintAll` — a layer, and a stack of layers from the bottom up, over a picture.
* `paintAll_clip` — layers clipped to a region paint the region and keep the rest.
* `foldl_write_eq_paint` — a loop that writes one position in each round paints a layer.
-/

namespace ViOS.Lib

variable {Pos Color Key : Type}

/-- A partial picture. -/
abbrev Layer (Pos Color : Type) := Pos → Option Color

def paint (layer : Layer Pos Color) (picture : Pos → Color) : Pos → Color := fun pos =>
  (layer pos).getD (picture pos)

def paintAll (layers : List (Layer Pos Color)) (picture : Pos → Color) : Pos → Color :=
  layers.foldl (fun picture layer => paint layer picture) picture

/-- A layer inside a region. -/
def clip (region : Pos → Prop) [DecidablePred region] (layer : Layer Pos Color) : Layer Pos Color :=
  fun pos => if region pos then layer pos else none

/-! ## Stacks of layers -/

@[simp] theorem paintAll_nil (picture : Pos → Color) : paintAll [] picture = picture := rfl

@[simp] theorem paintAll_cons (layer : Layer Pos Color) (layers : List (Layer Pos Color))
    (picture : Pos → Color) :
    paintAll (layer :: layers) picture = paintAll layers (paint layer picture) := rfl

theorem paintAll_append (lower upper : List (Layer Pos Color)) (picture : Pos → Color) :
    paintAll (lower ++ upper) picture = paintAll upper (paintAll lower picture) :=
  List.foldl_append

/-- What is painted at a position depends on that position only. -/
theorem paintAll_congr {layers : List (Layer Pos Color)} {picture other : Pos → Color} {pos : Pos}
    (same : picture pos = other pos) : paintAll layers picture pos = paintAll layers other pos := by
  induction layers generalizing picture other with
  | nil => exact same
  | cons layer rest ih =>
    refine ih ?_
    simp only [paint, same]

theorem paint_of_none {layer : Layer Pos Color} (clear : ∀ pos, layer pos = none)
    (picture : Pos → Color) : paint layer picture = picture := by
  funext pos
  rw [paint, clear pos, Option.getD_none]

theorem paintAll_of_none {layers : List (Layer Pos Color)}
    (clear : ∀ layer ∈ layers, ∀ pos, layer pos = none) (picture : Pos → Color) :
    paintAll layers picture = picture := by
  induction layers generalizing picture with
  | nil => rfl
  | cons layer rest ih =>
    rw [paintAll_cons, paint_of_none (clear layer List.mem_cons_self)]
    exact ih (fun layer inRest => clear layer (List.mem_cons_of_mem _ inRest)) picture

/-- Layers that are clear at a position leave it alone. -/
theorem paintAll_of_none_at {layers : List (Layer Pos Color)} {pos : Pos}
    (clear : ∀ layer ∈ layers, layer pos = none) (picture : Pos → Color) :
    paintAll layers picture pos = picture pos := by
  induction layers generalizing picture with
  | nil => rfl
  | cons layer rest ih =>
    rw [paintAll_cons, ih fun layer inRest => clear layer (List.mem_cons_of_mem _ inRest), paint,
      clear layer List.mem_cons_self, Option.getD_none]

/-! ## Clipping -/

section Clip

variable (region other : Pos → Prop) [DecidablePred region] [DecidablePred other]

theorem paintAll_clip (layers : List (Layer Pos Color)) (picture : Pos → Color) (pos : Pos) :
    paintAll (layers.map (clip region)) picture pos =
      if region pos then paintAll layers picture pos else picture pos := by
  induction layers generalizing picture with
  | nil => simp
  | cons layer rest ih =>
    rw [List.map_cons, paintAll_cons, ih, paintAll_cons]
    by_cases inside : region pos
    · rw [if_pos inside, if_pos inside]
      apply paintAll_congr
      rw [paint, clip, if_pos inside, paint]
    · rw [if_neg inside, if_neg inside, paint, clip, if_neg inside, Option.getD_none]

variable {region other}

/-- Only the part of a region under the layer matters. -/
theorem clip_congr {layer : Layer Pos Color}
    (same : ∀ pos, layer pos ≠ none → (region pos ↔ other pos)) :
    clip region layer = clip other layer := by
  funext pos
  by_cases clear : layer pos = none
  · simp [clip, clear]
  · simp [clip, same pos clear]

theorem clip_eq_self {layer : Layer Pos Color} (inside : ∀ pos, layer pos ≠ none → region pos) :
    clip region layer = layer := by
  funext pos
  by_cases clear : layer pos = none
  · simp [clip, clear]
  · rw [clip, if_pos (inside pos clear)]

theorem clip_eq_none {layer : Layer Pos Color} (outside : ∀ pos, layer pos ≠ none → ¬ region pos)
    (pos : Pos) : clip region layer pos = none := by
  by_cases inside : region pos
  · rw [clip, if_pos inside]
    by_contra painted
    exact outside pos painted inside
  · rw [clip, if_neg inside]

end Clip

/-! ## Loops -/

variable [DecidableEq Pos]

/-- One round of a loop: write a colour, or skip the position. -/
def writeRound (target : Key → Pos) (value : Key → Option Color) (picture : Pos → Color) (key : Key) :
    Pos → Color :=
  match value key with
  | none => picture
  | some color => Function.update picture (target key) color

theorem writeRound_apply (target : Key → Pos) (value : Key → Option Color) (picture : Pos → Color)
    (key : Key) (pos : Pos) : writeRound target value picture key pos =
      if target key = pos then (value key).getD (picture pos) else picture pos := by
  cases color : value key with
  | none => simp [writeRound, color]
  | some color' => simp [writeRound, color, Function.update_apply, eq_comm]

/-- A position is left with a colour when some round writes it there and no round another one. -/
theorem foldl_write_at {target : Key → Pos} {value : Key → Option Color} {keys : List Key} {pos : Pos} {color : Color}
    (agrees : ∀ key ∈ keys, target key = pos → ∀ other, value key = some other → other = color)
    (picture : Pos → Color) : keys.foldl (writeRound target value) picture pos =
      if ∃ key ∈ keys, target key = pos ∧ (value key).isSome then color else picture pos := by
  induction keys generalizing picture with
  | nil => simp
  | cons key rest ih =>
    rw [List.foldl_cons, ih fun other inRest => agrees other (List.mem_cons_of_mem _ inRest), writeRound_apply]
    have here := agrees key List.mem_cons_self
    by_cases now : target key = pos
    · cases written : value key with
      | none => simp [now, written]
      | some other => simp [now, written, here now other written]
    · simp [now]

/-- The rounds paint a layer when each writes the layer's colour at its position and the layer has
no other positions.  Rounds may share a position. -/
theorem foldl_write_eq_paint {layer : Layer Pos Color} {target : Key → Pos}
    {value : Key → Option Color} {keys : List Key}
    (agrees : ∀ key ∈ keys, layer (target key) = value key)
    (covered : ∀ pos, layer pos ≠ none → ∃ key ∈ keys, target key = pos) (picture : Pos → Color) :
    keys.foldl (writeRound target value) picture = paint layer picture := by
  -- what the rounds have done to a position: the induction is on the rounds left
  have visited : ∀ (keys : List Key) (picture : Pos → Color) (pos : Pos),
      (∀ key ∈ keys, layer (target key) = value key) →
      keys.foldl (writeRound target value) picture pos =
        if ∃ key ∈ keys, target key = pos then (layer pos).getD (picture pos) else picture pos := by
    intro keys
    induction keys with
    | nil => simp
    | cons key rest ih =>
      intro picture pos agrees
      rw [List.foldl_cons, ih _ _ fun key inRest => agrees key (List.mem_cons_of_mem _ inRest),
        writeRound_apply]
      have here := agrees key List.mem_cons_self
      by_cases now : target key = pos
      · rw [now] at here
        cases color : value key <;> simp [now, here, color]
      · simp [now]
  funext pos
  rw [visited keys picture pos agrees, paint]
  by_cases clear : layer pos = none
  · rw [clear, Option.getD_none, ite_self]
  · rw [if_pos (covered pos clear)]

end ViOS.Lib
