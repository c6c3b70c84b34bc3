import ViOS.Graphics.Nodes
import ViOS.Lib.Grid

/-! # Copying pixels between nodes

`graphics_paste_pixels_to_pixels` clips the rectangle to the source, in 32 bits, and
copies it pixel by pixel.  The destination is looked at only to leave pixels of the
transparency key alone.

* `graphicsPastePixelsToPixels` — the code, with a log of its writes.
* `CopiesExactly` — each pixel of the rectangle is written at its place, and no other one.
* `RoundFits`, `CopyFits` — the calls that do this.
* `pastePixels_exact_iff` — no other calls do; `createInBuffer_iff` — the copies of a new node's pixels.
-/

namespace ViOS.Graphics

open ViOS.Lib

/-! ## The code -/

def graphicsFlagDoNotOverwriteTransparentPixels : UInt32 := 0b00010000

/-- `graphics_bounds_check`; an `int` that is not negative is compared as a `uint32_t`. -/
def graphicsBoundsCheck (info : GraphicsInfo) (x y : Int32) : Bool :=
  ¬ (x < 0 ∨ y < 0 ∨ x.toUInt32 ≥ info.width ∨ y.toUInt32 ≥ info.height)

/-- `graphics_pixel_get`, or `none` for `-EINVARG`. -/
def graphicsPixelGet (info : GraphicsInfo) (x y : UInt32) : Option FramebufferPixel :=
  if graphicsBoundsCheck info x.toInt32 y.toInt32 then some (info.pixels (y * info.width + x)) else none

/-- The arguments of `graphics_paste_pixels_to_pixels` beside the two nodes. -/
structure CopyCall where
  srcX : UInt32
  srcY : UInt32
  width : UInt32
  height : UInt32
  dstX : UInt32
  dstY : UInt32
  flags : UInt32

/-- One write, with the round of the loops that makes it. -/
structure PixelWrite where
  lx : Nat
  ly : Nat
  index : UInt32
  pixel : FramebufferPixel

/-- The pixels of the destination, and the writes so far. -/
structure CopyState where
  pixels : UInt32 → FramebufferPixel
  writes : List PixelWrite

def CopyState.put (state : CopyState) (write : PixelWrite) : CopyState where
  pixels := Function.update state.pixels write.index write.pixel
  writes := state.writes ++ [write]

section Code

variable (inInfo outInfo : GraphicsInfo) (call : CopyCall)

/-- The index `dy * graphics_info_out->width + dx`. -/
def destinationIndex (lx ly : Nat) : UInt32 :=
  (call.dstY + .ofNat ly) * outInfo.width + (call.dstX + .ofNat lx)

/-- The round ends with `continue`. -/
def isProtected (pixels : UInt32 → FramebufferPixel) (lx ly : Nat) : Bool :=
  (call.dstX + .ofNat lx < outInfo.width ∧ call.dstY + .ofNat ly < outInfo.height) ∧
    call.flags &&& graphicsFlagDoNotOverwriteTransparentPixels ≠ 0 ∧
    outInfo.transparencyKey ≠ noTransparencyColor ∧
    pixels (destinationIndex outInfo call lx ly) = outInfo.transparencyKey

/-- The write of a round; a pixel that cannot be read is zero. -/
def roundWrite (lx ly : Nat) : PixelWrite where
  lx
  ly
  index := destinationIndex outInfo call lx ly
  pixel := (graphicsPixelGet inInfo (call.srcX + .ofNat lx) (call.srcY + .ofNat ly)).getD noTransparencyColor

/-- One round of the copying loops. -/
def copyRound (state : CopyState) (round : Nat × Nat) : CopyState :=
  if isProtected outInfo call state.pixels round.1 round.2 then state
  else state.put (roundWrite inInfo outInfo call round.1 round.2)

/-- `final_w` and `final_h`. -/
def finalLength (start length bound : UInt32) : UInt32 :=
  (if start + length > bound then bound else start + length) - start

/-- The rounds of the two loops, in their order. -/
def copyRounds : List (Nat × Nat) :=
  List.range (finalLength call.srcX call.width inInfo.width).toNat ×ˢ
    List.range (finalLength call.srcY call.height inInfo.height).toNat

/-- `graphics_paste_pixels_to_pixels`. -/
def graphicsPastePixelsToPixels : CopyState :=
  (copyRounds inInfo call).foldl (copyRound inInfo outInfo call) ⟨outInfo.pixels, []⟩

end Code

/-! ## What is asked of a copy -/

/-- The buffer of a node holds `width * height` pixels.  Its size is computed in 32 bits. -/
def GraphicsInfo.HasPixels (info : GraphicsInfo) : Prop := info.width.toNat * info.height.toNat ≤ 2 ^ 32

/-- The pixel in column `x` and row `y`. -/
def GraphicsInfo.pixelAt (info : GraphicsInfo) (x y : Nat) : FramebufferPixel :=
  info.pixels (.ofNat (gridIndex info.width.toNat x y))

section Exactly

variable (inInfo outInfo : GraphicsInfo) (call : CopyCall)

/-- The pixel of the destination at the round is a transparent one that is not overwritten. -/
def KeepsTransparent (lx ly : Nat) : Prop :=
  call.flags &&& graphicsFlagDoNotOverwriteTransparentPixels ≠ 0 ∧
    outInfo.transparencyKey ≠ noTransparencyColor ∧
    outInfo.pixelAt (call.dstX.toNat + lx) (call.dstY.toNat + ly) = outInfo.transparencyKey

/-- The pixel `(lx, ly)` of the rectangle lies in the source and in the destination, and may be
written. -/
structure Copied (lx ly : Nat) : Prop where
  requested : lx < call.width.toNat ∧ ly < call.height.toNat
  inSource : call.srcX.toNat + lx < inInfo.width.toNat ∧ call.srcY.toNat + ly < inInfo.height.toNat
  inDestination : call.dstX.toNat + lx < outInfo.width.toNat ∧ call.dstY.toNat + ly < outInfo.height.toNat
  writable : ¬ KeepsTransparent outInfo call lx ly

structure CopiesExactly (writes : List PixelWrite) : Prop where
  inBuffer : ∀ write ∈ writes, write.index.toNat < outInfo.width.toNat * outInfo.height.toNat
  rounds : ∀ lx ly, (∃ write ∈ writes, write.lx = lx ∧ write.ly = ly) ↔ Copied inInfo outInfo call lx ly
  pixels : ∀ write ∈ writes,
    write.index.toNat =
        gridIndex outInfo.width.toNat (call.dstX.toNat + write.lx) (call.dstY.toNat + write.ly) ∧
      write.pixel = inInfo.pixelAt (call.srcX.toNat + write.lx) (call.srcY.toNat + write.ly)

/-- The number of rounds along one side: the end is cut off at 32 bits and at the bound, and the
difference is taken in 32 bits. -/
def loopLength (start length bound : Nat) : Nat :=
  (min ((start + length) % 2 ^ 32) bound + 2 ^ 32 - start) % 2 ^ 32

/-- A round stays inside both nodes, and its pixel can be read: `graphics_pixel_get` refuses
coordinates that are negative as an `int`, and zero is written for them. -/
structure RoundFits (lx ly : Nat) : Prop where
  inSource : call.srcX.toNat + lx < inInfo.width.toNat ∧ call.srcY.toNat + ly < inInfo.height.toNat
  inDestination : call.dstX.toNat + lx < outInfo.width.toNat ∧ call.dstY.toNat + ly < outInfo.height.toNat
  readable : (call.srcX.toNat + lx < 2 ^ 31 ∧ call.srcY.toNat + ly < 2 ^ 31) ∨
    inInfo.pixelAt (call.srcX.toNat + lx) (call.srcY.toNat + ly) = noTransparencyColor

/-- Each round finds a protected pixel, or fits. -/
def CopyFits : Prop :=
  ∀ lx < loopLength call.srcX.toNat call.width.toNat inInfo.width.toNat,
    ∀ ly < loopLength call.srcY.toNat call.height.toNat inInfo.height.toNat,
      isProtected outInfo call outInfo.pixels lx ly ∨ RoundFits inInfo outInfo call lx ly

end Exactly

/-! ## The rounds -/

theorem finalLength_toNat (start length bound : UInt32) :
    (finalLength start length bound).toNat = loopLength start.toNat length.toNat bound.toNat := by
  have startLt := start.toNat_lt
  have boundLt := bound.toNat_lt
  unfold finalLength loopLength
  split
  next exceeds =>
    rw [gt_iff_lt, UInt32.lt_iff_toNat_lt, UInt32.toNat_add] at exceeds
    rw [UInt32.toNat_sub]
    omega
  next inBound =>
    rw [gt_iff_lt, UInt32.lt_iff_toNat_lt, UInt32.toNat_add] at inBound
    rw [UInt32.toNat_sub, UInt32.toNat_add]
    omega

section Rounds

variable {inInfo outInfo : GraphicsInfo} {call : CopyCall} {lx ly : Nat}

theorem mem_copyRounds : (lx, ly) ∈ copyRounds inInfo call ↔
    lx < loopLength call.srcX.toNat call.width.toNat inInfo.width.toNat ∧
      ly < loopLength call.srcY.toNat call.height.toNat inInfo.height.toNat := by
  rw [copyRounds, List.mem_product, List.mem_range, List.mem_range, finalLength_toNat, finalLength_toNat]

theorem copyRounds_nodup : (copyRounds inInfo call).Nodup :=
  List.nodup_range.product List.nodup_range

theorem loopLength_lt (start length bound : Nat) : loopLength start length bound < 2 ^ 32 :=
  Nat.mod_lt _ (by decide)

/-- No pixel of the source is left out by the loops. -/
theorem lt_loopLength {start length bound i : Nat} (boundLt : bound < 2 ^ 32) (lengthLt : length < 2 ^ 32)
    (inLength : i < length) (inBound : start + i < bound) : i < loopLength start length bound := by
  unfold loopLength
  omega

/-- Where the loops go on behind the rectangle, they have left the source. -/
theorem lt_length_of_round {start length bound i : Nat} (lengthLt : length < 2 ^ 32)
    (isRound : i < loopLength start length bound) (inBound : start + i < bound) : i < length := by
  unfold loopLength at isRound
  omega

theorem add_ofNat_toNat {a : UInt32} {i : Nat} (inRange : a.toNat + i < 2 ^ 32) :
    (a + .ofNat i).toNat = a.toNat + i := by
  rw [UInt32.toNat_add, UInt32.toNat_ofNat', Nat.add_mod_mod, Nat.mod_eq_of_lt inRange]

theorem pixels_destinationIndex : outInfo.pixels (destinationIndex outInfo call lx ly) =
    outInfo.pixelAt (call.dstX.toNat + lx) (call.dstY.toNat + ly) := by
  rw [destinationIndex, ofNat_index]
  rfl

/-- The index of a pixel of the destination. -/
theorem destinationIndex_toNat (hasPixels : outInfo.HasPixels)
    (inX : (call.dstX + .ofNat lx).toNat < outInfo.width.toNat)
    (inY : (call.dstY + .ofNat ly).toNat < outInfo.height.toNat) :
    (destinationIndex outInfo call lx ly).toNat =
      gridIndex outInfo.width.toNat (call.dstX + .ofNat lx).toNat (call.dstY + .ofNat ly).toNat := by
  have inBuffer := gridIndex_lt inX inY
  unfold gridIndex at inBuffer ⊢
  rw [destinationIndex, UInt32.toNat_add, UInt32.toNat_mul, Nat.mod_add_mod]
  exact Nat.mod_eq_of_lt (Nat.lt_of_lt_of_le inBuffer hasPixels)

end Rounds

/-! ## The log -/

/-- The pixel of a round lies in the destination. -/
def InDestination (outInfo : GraphicsInfo) (call : CopyCall) (lx ly : Nat) : Prop :=
  call.dstX.toNat + lx < outInfo.width.toNat ∧ call.dstY.toNat + ly < outInfo.height.toNat

/-- The state when some rounds are done. -/
structure Progress (inInfo outInfo : GraphicsInfo) (call : CopyCall) (done : List (Nat × Nat))
    (state : CopyState) : Prop where
  logged : ∀ write ∈ state.writes, (write.lx, write.ly) ∈ done ∧
    write = roundWrite inInfo outInfo call write.lx write.ly
  changed : ∀ index, state.pixels index ≠ outInfo.pixels index → ∃ write ∈ state.writes, write.index = index

section Log

variable {inInfo outInfo : GraphicsInfo} {call : CopyCall} {done rest : List (Nat × Nat)} {state : CopyState}

theorem Progress.start : Progress inInfo outInfo call [] ⟨outInfo.pixels, []⟩ where
  logged := by simp
  changed := by simp

theorem Progress.skip (progress : Progress inInfo outInfo call done state) (round : Nat × Nat) :
    Progress inInfo outInfo call (done ++ [round]) state where
  logged write member := ⟨List.mem_append_left _ (progress.logged write member).1,
    (progress.logged write member).2⟩
  changed := progress.changed

theorem Progress.put (progress : Progress inInfo outInfo call done state) (round : Nat × Nat) :
    Progress inInfo outInfo call (done ++ [round])
      (state.put (roundWrite inInfo outInfo call round.1 round.2)) where
  logged write member := by
    cases List.mem_append.mp member with
    | inl before => exact (progress.skip round).logged write before
    | inr now =>
      rw [List.mem_singleton.mp now]
      exact ⟨List.mem_append_right _ List.mem_cons_self, rfl⟩
  changed index changed := by
    by_cases here : index = (roundWrite inInfo outInfo call round.1 round.2).index
    · exact ⟨_, List.mem_append_right _ List.mem_cons_self, here.symm⟩
    · simp only [CopyState.put, Function.update_of_ne here] at changed
      obtain ⟨write, member, index⟩ := progress.changed _ changed
      exact ⟨write, List.mem_append_left _ member, index⟩

/-- While the writes stay in the destination, a round finds there what was there before the copy. -/
theorem Progress.isProtected_next {round : Nat × Nat} (progress : Progress inInfo outInfo call done state)
    (hasPixels : outInfo.HasPixels) (nodup : (done ++ [round] ++ rest).Nodup)
    (small : ∀ other ∈ done ++ [round] ++ rest, other.1 < 2 ^ 32 ∧ other.2 < 2 ^ 32)
    (inside : ∀ write ∈ state.writes, InDestination outInfo call write.lx write.ly) :
    isProtected outInfo call state.pixels round.1 round.2 =
      isProtected outInfo call outInfo.pixels round.1 round.2 := by
  unfold isProtected
  by_cases inRange : call.dstX + .ofNat round.1 < outInfo.width ∧ call.dstY + .ofNat round.2 < outInfo.height
  · have same : state.pixels (destinationIndex outInfo call round.1 round.2) =
        outInfo.pixels (destinationIndex outInfo call round.1 round.2) := by
      by_contra changed
      -- An earlier round has written here, and it is this one.
      obtain ⟨write, member, sameIndex⟩ := progress.changed _ changed
      obtain ⟨isDone, isWrite⟩ := progress.logged write member
      obtain ⟨insideX, insideY⟩ := inside write member
      obtain ⟨smallX, smallY⟩ := small round (by simp)
      have widthLt := outInfo.width.toNat_lt
      have heightLt := outInfo.height.toNat_lt
      have atX := @add_ofNat_toNat call.dstX write.lx (by omega)
      have atY := @add_ofNat_toNat call.dstY write.ly (by omega)
      rw [isWrite] at sameIndex
      have places := congrArg UInt32.toNat sameIndex
      rw [roundWrite, destinationIndex_toNat hasPixels (atX ▸ insideX) (atY ▸ insideY),
        destinationIndex_toNat hasPixels (UInt32.lt_iff_toNat_lt.mp inRange.1)
          (UInt32.lt_iff_toNat_lt.mp inRange.2)] at places
      obtain ⟨sameX, sameY⟩ := gridIndex_inj (atX ▸ insideX) (UInt32.lt_iff_toNat_lt.mp inRange.1) places
      rw [atX, UInt32.toNat_add, UInt32.toNat_ofNat'] at sameX
      rw [atY, UInt32.toNat_add, UInt32.toNat_ofNat'] at sameY
      have isRound : round = (write.lx, write.ly) := Prod.ext (by omega) (by omega)
      have apart := List.disjoint_of_nodup_append (List.nodup_append.mp nodup).1
      exact apart isDone (isRound ▸ List.mem_cons_self)
    rw [same]
  · simp [inRange]

/-- What the rounds add to the log when each one finds a protected pixel or stays in the destination. -/
theorem Progress.writes_eq (hasPixels : outInfo.HasPixels) (progress : Progress inInfo outInfo call done state)
    (inside : ∀ write ∈ state.writes, InDestination outInfo call write.lx write.ly)
    (nodup : (done ++ rest).Nodup) (small : ∀ round ∈ done ++ rest, round.1 < 2 ^ 32 ∧ round.2 < 2 ^ 32)
    (stays : ∀ round ∈ rest, isProtected outInfo call outInfo.pixels round.1 round.2 ∨
      InDestination outInfo call round.1 round.2) :
    (rest.foldl (copyRound inInfo outInfo call) state).writes = state.writes ++
      (rest.filter fun round => !isProtected outInfo call outInfo.pixels round.1 round.2).map
        fun round => roundWrite inInfo outInfo call round.1 round.2 := by
  induction rest generalizing done state with
  | nil => simp
  | cons round rest ih =>
    rw [List.append_cons] at nodup small
    have asBefore := progress.isProtected_next hasPixels nodup small inside
    have staysRest := fun later inRest => stays later (List.mem_cons_of_mem round inRest)
    rw [List.foldl_cons, copyRound, asBefore]
    by_cases kept : isProtected outInfo call outInfo.pixels round.1 round.2 = true
    · rw [if_pos kept, ih (progress.skip round) inside nodup small staysRest, List.filter_cons_of_neg (by simp [kept])]
    · have here := (stays round List.mem_cons_self).resolve_left kept
      have insideAfter : ∀ write ∈ (state.put (roundWrite inInfo outInfo call round.1 round.2)).writes,
          InDestination outInfo call write.lx write.ly := by
        intro write member
        cases List.mem_append.mp member with
        | inl before => exact inside write before
        | inr now =>
          rw [List.mem_singleton.mp now]
          exact here
      rw [if_neg kept, ih (progress.put round) insideAfter nodup small staysRest,
        List.filter_cons_of_pos (by simp [kept]), List.map_cons, CopyState.put, List.append_assoc]
      rfl

/-- The log only grows. -/
theorem writes_subset (rounds : List (Nat × Nat)) (state : CopyState) :
    state.writes ⊆ (rounds.foldl (copyRound inInfo outInfo call) state).writes := by
  induction rounds generalizing state with
  | nil => exact List.Subset.refl _
  | cons round rest ih =>
    refine List.Subset.trans ?_ (ih _)
    unfold copyRound
    split
    · exact List.Subset.refl _
    · exact List.subset_append_left _ _

/-- When all writes are in the destination, each round has found a protected pixel or stays there. -/
theorem Progress.stays (hasPixels : outInfo.HasPixels) (progress : Progress inInfo outInfo call done state)
    (nodup : (done ++ rest).Nodup) (small : ∀ round ∈ done ++ rest, round.1 < 2 ^ 32 ∧ round.2 < 2 ^ 32)
    (inside : ∀ write ∈ (rest.foldl (copyRound inInfo outInfo call) state).writes,
      InDestination outInfo call write.lx write.ly) :
    ∀ round ∈ rest, isProtected outInfo call outInfo.pixels round.1 round.2 ∨
      InDestination outInfo call round.1 round.2 := by
  induction rest generalizing done state with
  | nil => simp
  | cons round rest ih =>
    rw [List.append_cons] at nodup small
    have insideNow : ∀ write ∈ state.writes, InDestination outInfo call write.lx write.ly :=
      fun write member => inside write (writes_subset (round :: rest) state member)
    have asBefore := progress.isProtected_next hasPixels nodup small insideNow
    rw [List.foldl_cons, copyRound, asBefore] at inside
    intro other member
    by_cases kept : isProtected outInfo call outInfo.pixels round.1 round.2 = true
    · rw [if_pos kept] at inside
      cases List.mem_cons.mp member with
      | inl isRound => exact .inl (isRound ▸ kept)
      | inr inRest => exact ih (progress.skip round) nodup small inside other inRest
    · rw [if_neg kept] at inside
      cases List.mem_cons.mp member with
      | inl isRound =>
        have written := inside (roundWrite inInfo outInfo call round.1 round.2)
          (writes_subset rest _ (List.mem_append_right _ List.mem_cons_self))
        exact .inr (isRound ▸ written)
      | inr inRest => exact ih (progress.put round) nodup small inside other inRest

end Log

/-! ## Exact copies -/

theorem graphicsBoundsCheck_iff (info : GraphicsInfo) (x y : UInt32) :
    graphicsBoundsCheck info x.toInt32 y.toInt32 = true ↔
      (x.toNat < 2 ^ 31 ∧ y.toNat < 2 ^ 31) ∧ x.toNat < info.width.toNat ∧ y.toNat < info.height.toNat := by
  have negative : ∀ z : UInt32, z.toInt32 < 0 ↔ 2 ^ 31 ≤ z.toNat := by
    intro z
    have zLt := z.toNat_lt
    rw [Int32.lt_iff_toInt_lt, Int32.toInt_zero]
    change z.toBitVec.toInt < 0 ↔ _
    rw [BitVec.toInt_eq_toNat_cond]
    change (if 2 * z.toNat < 2 ^ 32 then (z.toNat : Int) else (z.toNat : Int) - (2 ^ 32 : Nat)) < 0 ↔ _
    split <;> omega
  rw [graphicsBoundsCheck, decide_eq_true_eq, negative, negative, UInt32.toUInt32_toInt32,
    UInt32.toUInt32_toInt32, ge_iff_le, ge_iff_le, UInt32.le_iff_toNat_le, UInt32.le_iff_toNat_le]
  omega

section Exact

variable {inInfo outInfo : GraphicsInfo} {call : CopyCall}

theorem readPixel_iff {lx ly : Nat} (inSourceX : call.srcX.toNat + lx < inInfo.width.toNat)
    (inSourceY : call.srcY.toNat + ly < inInfo.height.toNat) :
    (roundWrite inInfo outInfo call lx ly).pixel =
        inInfo.pixelAt (call.srcX.toNat + lx) (call.srcY.toNat + ly) ↔
      (call.srcX.toNat + lx < 2 ^ 31 ∧ call.srcY.toNat + ly < 2 ^ 31) ∨
        inInfo.pixelAt (call.srcX.toNat + lx) (call.srcY.toNat + ly) = noTransparencyColor := by
  have widthLt := inInfo.width.toNat_lt
  have heightLt := inInfo.height.toNat_lt
  have checked := graphicsBoundsCheck_iff inInfo (call.srcX + .ofNat lx) (call.srcY + .ofNat ly)
  rw [add_ofNat_toNat (by omega), add_ofNat_toNat (by omega)] at checked
  have source : inInfo.pixels ((call.srcY + .ofNat ly) * inInfo.width + (call.srcX + .ofNat lx)) =
      inInfo.pixelAt (call.srcX.toNat + lx) (call.srcY.toNat + ly) := by
    rw [ofNat_index]
    rfl
  rw [roundWrite, graphicsPixelGet, source]
  by_cases small : call.srcX.toNat + lx < 2 ^ 31 ∧ call.srcY.toNat + ly < 2 ^ 31
  · rw [if_pos (checked.mpr ⟨small, inSourceX, inSourceY⟩)]
    exact ⟨fun _ => .inl small, fun _ => rfl⟩
  · rw [if_neg fun passes => small (checked.mp passes).1, Option.getD_none]
    exact ⟨fun same => .inr same.symm, fun readable => (readable.resolve_left small).symm⟩

theorem isProtected_iff {lx ly : Nat} (inside : InDestination outInfo call lx ly) :
    isProtected outInfo call outInfo.pixels lx ly = true ↔ KeepsTransparent outInfo call lx ly := by
  have widthLt := outInfo.width.toNat_lt
  have heightLt := outInfo.height.toNat_lt
  obtain ⟨insideX, insideY⟩ := inside
  have inRange : call.dstX + .ofNat lx < outInfo.width ∧ call.dstY + .ofNat ly < outInfo.height := by
    rw [UInt32.lt_iff_toNat_lt, UInt32.lt_iff_toNat_lt, add_ofNat_toNat (by omega), add_ofNat_toNat (by omega)]
    exact ⟨insideX, insideY⟩
  rw [isProtected, decide_eq_true_eq, pixels_destinationIndex]
  exact and_iff_right inRange

theorem roundWrite_index {lx ly : Nat} (hasPixels : outInfo.HasPixels) (inside : InDestination outInfo call lx ly) :
    (roundWrite inInfo outInfo call lx ly).index.toNat =
      gridIndex outInfo.width.toNat (call.dstX.toNat + lx) (call.dstY.toNat + ly) := by
  have widthLt := outInfo.width.toNat_lt
  have heightLt := outInfo.height.toNat_lt
  obtain ⟨insideX, insideY⟩ := inside
  have atX := @add_ofNat_toNat call.dstX lx (by omega)
  have atY := @add_ofNat_toNat call.dstY ly (by omega)
  rw [roundWrite, destinationIndex_toNat hasPixels (atX ▸ insideX) (atY ▸ insideY), atX, atY]

theorem small_of_mem_copyRounds {round : Nat × Nat} (isRound : round ∈ [] ++ copyRounds inInfo call) :
    round.1 < 2 ^ 32 ∧ round.2 < 2 ^ 32 := by
  obtain ⟨inX, inY⟩ := mem_copyRounds.mp isRound
  exact ⟨inX.trans (loopLength_lt _ _ _), inY.trans (loopLength_lt _ _ _)⟩

/-- The writes of a copy whose rounds stay in the destination. -/
theorem mem_writes_iff (hasPixels : outInfo.HasPixels)
    (stays : ∀ round ∈ copyRounds inInfo call, isProtected outInfo call outInfo.pixels round.1 round.2 ∨
      InDestination outInfo call round.1 round.2) (write : PixelWrite) :
    write ∈ (graphicsPastePixelsToPixels inInfo outInfo call).writes ↔
      ∃ lx ly, (lx, ly) ∈ copyRounds inInfo call ∧ isProtected outInfo call outInfo.pixels lx ly = false ∧
        write = roundWrite inInfo outInfo call lx ly := by
  have log := (@Progress.start inInfo outInfo call).writes_eq hasPixels (by simp)
    (show ([] ++ copyRounds inInfo call).Nodup from copyRounds_nodup) (fun _ => small_of_mem_copyRounds) stays
  rw [graphicsPastePixelsToPixels, log, List.nil_append, List.mem_map]
  constructor
  · rintro ⟨⟨lx, ly⟩, member, rfl⟩
    obtain ⟨isRound, notKept⟩ := List.mem_filter.mp member
    exact ⟨lx, ly, isRound, by simpa using notKept, rfl⟩
  · rintro ⟨lx, ly, isRound, notKept, rfl⟩
    exact ⟨(lx, ly), List.mem_filter.mpr ⟨isRound, by simp [notKept]⟩, rfl⟩

/-- A copy is exact just when each round finds a protected pixel or fits. -/
theorem copiesExactly_iff (outPixels : outInfo.HasPixels) :
    CopiesExactly inInfo outInfo call (graphicsPastePixelsToPixels inInfo outInfo call).writes ↔
      CopyFits inInfo outInfo call := by
  constructor
  · intro exactly lx inX ly inY
    have stays := (@Progress.start inInfo outInfo call).stays outPixels
      (show ([] ++ copyRounds inInfo call).Nodup from copyRounds_nodup) (fun _ => small_of_mem_copyRounds)
      fun write member => ((exactly.rounds _ _).mp ⟨write, member, rfl, rfl⟩).inDestination
    refine Classical.or_iff_not_imp_left.mpr fun notKept => ?_
    have member := (mem_writes_iff outPixels stays _).mpr
      ⟨lx, ly, mem_copyRounds.mpr ⟨inX, inY⟩, Bool.eq_false_iff.mpr notKept, rfl⟩
    have copied := (exactly.rounds lx ly).mp ⟨_, member, rfl, rfl⟩
    exact ⟨copied.inSource, copied.inDestination,
      (readPixel_iff copied.inSource.1 copied.inSource.2).mp (exactly.pixels _ member).2⟩
  · intro fits
    have stays : ∀ round ∈ copyRounds inInfo call, isProtected outInfo call outInfo.pixels round.1 round.2 ∨
        InDestination outInfo call round.1 round.2 := by
      intro round isRound
      obtain ⟨inX, inY⟩ := mem_copyRounds.mp isRound
      exact (fits _ inX _ inY).imp_right RoundFits.inDestination
    have written := @mem_writes_iff inInfo outInfo call outPixels stays
    have fitsOf : ∀ {lx ly}, (lx, ly) ∈ copyRounds inInfo call →
        isProtected outInfo call outInfo.pixels lx ly = false → RoundFits inInfo outInfo call lx ly := by
      intro lx ly isRound notKept
      obtain ⟨inX, inY⟩ := mem_copyRounds.mp isRound
      exact (fits lx inX ly inY).resolve_left (by simp [notKept])
    refine ⟨?_, ?_, ?_⟩
    · intro write member
      obtain ⟨lx, ly, isRound, notKept, rfl⟩ := (written write).mp member
      have inside := (fitsOf isRound notKept).inDestination
      rw [roundWrite_index outPixels inside]
      exact gridIndex_lt inside.1 inside.2
    · intro lx ly
      constructor
      · rintro ⟨write, member, rfl, rfl⟩
        obtain ⟨lx, ly, isRound, notKept, rfl⟩ := (written write).mp member
        have fit := fitsOf isRound notKept
        obtain ⟨inX, inY⟩ := mem_copyRounds.mp isRound
        refine ⟨⟨?_, ?_⟩, fit.inSource, fit.inDestination, fun keeps => ?_⟩
        · exact lt_length_of_round call.width.toNat_lt inX fit.inSource.1
        · exact lt_length_of_round call.height.toNat_lt inY fit.inSource.2
        · rw [(isProtected_iff fit.inDestination).mpr keeps] at notKept
          cases notKept
      · intro copied
        have isRound : (lx, ly) ∈ copyRounds inInfo call :=
          mem_copyRounds.mpr ⟨lt_loopLength inInfo.width.toNat_lt call.width.toNat_lt copied.requested.1
            copied.inSource.1, lt_loopLength inInfo.height.toNat_lt call.height.toNat_lt copied.requested.2
            copied.inSource.2⟩
        have notKept : isProtected outInfo call outInfo.pixels lx ly = false :=
          Bool.eq_false_iff.mpr fun kept => copied.writable ((isProtected_iff copied.inDestination).mp kept)
        exact ⟨_, (written _).mpr ⟨lx, ly, isRound, notKept, rfl⟩, rfl, rfl⟩
    · intro write member
      obtain ⟨lx, ly, isRound, notKept, rfl⟩ := (written write).mp member
      have fit := fitsOf isRound notKept
      exact ⟨roundWrite_index outPixels fit.inDestination,
        (readPixel_iff fit.inSource.1 fit.inSource.2).mpr fit.readable⟩

end Exact

/-! ## The copy of a new node -/

/-- The call `graphics_info_create_relative` makes. -/
def createCall (x y width height : UInt64) : CopyCall :=
  ⟨x.toUInt32, y.toUInt32, width.toUInt32, height.toUInt32, 0, 0, graphicsFlagDoNotOverwriteTransparentPixels⟩

/-- The copy of `graphics_info_create_relative` to the zeroed buffer of the new node. -/
def createCopy (source : GraphicsNode) (sourceGraphics : Nat) (x y width height : UInt64) : CopyState :=
  graphicsPastePixelsToPixels source.info
    (newNode source sourceGraphics x y width height fun _ => noTransparencyColor).info (createCall x y width height)

/-- The number of pixels `kzalloc` is asked for, a product of two `uint32_t`. -/
def newPixels (width height : UInt64) : UInt32 := width.toUInt32 * height.toUInt32

/-- The copy writes to the buffer of the new node only. -/
def CreateInBuffer (source : GraphicsNode) (sourceGraphics : Nat) (x y width height : UInt64) : Prop :=
  ∀ write ∈ (createCopy source sourceGraphics x y width height).writes, write.index < newPixels width height

/-- The last round is in the new node: its loops are not longer than the part of the source at
`(x, y)`, unless the 32-bit differences wrap.  Where the number of pixels wraps, each row has to begin at
an index from which its columns end in the buffer. -/
def CreateFits (source : GraphicsNode) (x y width height : UInt64) : Prop :=
  let columns := loopLength x.toUInt32.toNat width.toUInt32.toNat source.info.width.toNat
  let rows := loopLength y.toUInt32.toNat height.toUInt32.toNat source.info.height.toNat
  columns = 0 ∨ rows = 0 ∨
    if width.toUInt32.toNat * height.toUInt32.toNat < 2 ^ 32 then
      (rows - 1) * width.toUInt32.toNat + columns ≤ width.toUInt32.toNat * height.toUInt32.toNat
    else
      ∀ row < rows, row * width.toUInt32.toNat % 2 ^ 32 + columns ≤
        width.toUInt32.toNat * height.toUInt32.toNat % 2 ^ 32

instance (source : GraphicsNode) (x y width height : UInt64) : Decidable (CreateFits source x y width height) :=
  inferInstanceAs (Decidable (_ ∨ _ ∨ _))

/-- A loop over `rows` and `columns` stays in a buffer just when its last cell does.  Behind the end it
would not miss the first index that is not in the buffer. -/
theorem loop_inBuffer_iff {width height columns rows : Nat} (sized : width * height < 2 ^ 32) :
    (∀ x < columns, ∀ y < rows, gridIndex width x y % 2 ^ 32 < width * height) ↔
      columns = 0 ∨ rows = 0 ∨ (rows - 1) * width + columns ≤ width * height := by
  constructor
  · intro inside
    by_contra outside
    simp only [not_or] at outside
    by_cases manyRows : height < rows
    · have first := inside 0 (by omega) height manyRows
      rw [gridIndex, Nat.mul_comm, Nat.add_zero, Nat.mod_eq_of_lt sized] at first
      exact Nat.lt_irrefl _ first
    · have below : (rows - 1) * width ≤ width * height := by
        rw [Nat.mul_comm width]
        exact Nat.mul_le_mul_right _ (by omega)
      have last := inside (width * height - (rows - 1) * width) (by omega) (rows - 1) (by omega)
      rw [gridIndex, Nat.add_sub_of_le below, Nat.mod_eq_of_lt sized] at last
      exact Nat.lt_irrefl _ last
  · intro fits x inX y inY
    have lastRow : y * width ≤ (rows - 1) * width := Nat.mul_le_mul_right _ (by omega)
    unfold gridIndex
    rw [Nat.mod_eq_of_lt (by omega)]
    omega

/-- With the indices cut off at 32 bits, each row has to end in the buffer. -/
theorem rows_inBuffer_iff {width size columns rows : Nat} (sizeLt : size < 2 ^ 32) :
    (∀ x < columns, ∀ y < rows, gridIndex width x y % 2 ^ 32 < size) ↔
      columns = 0 ∨ ∀ y < rows, y * width % 2 ^ 32 + columns ≤ size := by
  constructor
  · intro inside
    refine Classical.or_iff_not_imp_left.mpr fun someColumn y inY => ?_
    by_contra behind
    have first := inside 0 (by omega) y inY
    rw [gridIndex, Nat.add_zero] at first
    -- Of the columns behind the end the first one has the first index that is not in the buffer.
    have last := inside (size - y * width % 2 ^ 32) (by omega) y inY
    rw [gridIndex, ← Nat.mod_add_mod, Nat.add_sub_of_le first.le, Nat.mod_eq_of_lt sizeLt] at last
    exact Nat.lt_irrefl _ last
  · intro fits x inX y inY
    have row := fits.resolve_left (by omega) y inY
    rw [gridIndex, ← Nat.mod_add_mod, Nat.mod_eq_of_lt (by omega)]
    omega

section Create

variable (source : GraphicsNode) (sourceGraphics : Nat) (x y width height : UInt64)

/-- The new node has no transparency key yet, so no round is left out. -/
theorem createCopy_writes : (createCopy source sourceGraphics x y width height).writes =
    (copyRounds source.info (createCall x y width height)).map fun round => roundWrite source.info
      (newNode source sourceGraphics x y width height fun _ => noTransparencyColor).info
      (createCall x y width height) round.1 round.2 := by
  have each : ∀ (rounds : List (Nat × Nat)) (state : CopyState), (rounds.foldl (copyRound source.info
      (newNode source sourceGraphics x y width height fun _ => noTransparencyColor).info
      (createCall x y width height)) state).writes = state.writes ++ rounds.map
        fun round => roundWrite source.info
          (newNode source sourceGraphics x y width height fun _ => noTransparencyColor).info
          (createCall x y width height) round.1 round.2 := by
    intro rounds
    induction rounds with
    | nil => simp
    | cons round rest ih =>
      intro state
      rw [List.foldl_cons, ih, copyRound, if_neg (by simp [isProtected, newNode]), CopyState.put,
        List.append_assoc]
      rfl
  exact each _ _

theorem createCopy_index (lx ly : Nat) : (roundWrite source.info
      (newNode source sourceGraphics x y width height fun _ => noTransparencyColor).info
      (createCall x y width height) lx ly).index.toNat = gridIndex width.toUInt32.toNat lx ly % 2 ^ 32 := by
  rw [roundWrite, destinationIndex, ofNat_index, UInt32.toNat_ofNat', createCall, UInt32.toNat_zero, Nat.zero_add,
    Nat.zero_add]
  rfl

theorem createInBuffer_iff :
    CreateInBuffer source sourceGraphics x y width height ↔ CreateFits source x y width height := by
  have size : (newPixels width height).toNat = width.toUInt32.toNat * height.toUInt32.toNat % 2 ^ 32 :=
    UInt32.toNat_mul _ _
  have rounds : CreateInBuffer source sourceGraphics x y width height ↔
      ∀ lx < loopLength x.toUInt32.toNat width.toUInt32.toNat source.info.width.toNat,
        ∀ ly < loopLength y.toUInt32.toNat height.toUInt32.toNat source.info.height.toNat,
          gridIndex width.toUInt32.toNat lx ly % 2 ^ 32 < (newPixels width height).toNat := by
    unfold CreateInBuffer
    simp only [createCopy_writes, UInt32.lt_iff_toNat_lt]
    constructor
    · intro inside lx inX ly inY
      have isRound : (lx, ly) ∈ copyRounds source.info (createCall x y width height) := mem_copyRounds.mpr ⟨inX, inY⟩
      have here := inside _ (List.mem_map_of_mem isRound)
      rwa [createCopy_index] at here
    · intro inside write member
      obtain ⟨⟨lx, ly⟩, isRound, rfl⟩ := List.mem_map.mp member
      obtain ⟨inX, inY⟩ := mem_copyRounds.mp isRound
      rw [createCopy_index]
      exact inside lx inX ly inY
  rw [rounds, size]
  unfold CreateFits
  simp only
  split
  next sized => rw [Nat.mod_eq_of_lt sized, loop_inBuffer_iff sized]
  next wraps =>
    rw [rows_inBuffer_iff (Nat.mod_lt _ (by decide))]
    refine or_congr_right ⟨.inr, fun fits y inY => fits.resolve_left (by omega) y inY⟩

end Create

/-! ## The copies -/

/-- A node of two by two pixels of one colour. -/
def square (color : FramebufferPixel) : GraphicsInfo :=
  ⟨640, 480, 640, fun _ => color, 2, 2, 0, 0, noTransparencyColor⟩

theorem square_hasPixels (color : FramebufferPixel) : (square color).HasPixels :=
  show 2 * 2 ≤ 2 ^ 32 by decide

/-- A window of ten by ten pixels in the corner of a screen. -/
def cornerWindow : GraphicsNode :=
  ⟨⟨640, 480, 640, fun _ => noTransparencyColor, 10, 10, 0, 0, noTransparencyColor⟩, 0, 0, none, [], 0, false⟩

end ViOS.Graphics
