import Mathlib
import LightControlMonitor.Oled.Wire

/-!
# The picture on the panel

What the panel does with the commands, as far as the comments of `oled_driver.c` say it: it clears, and it plots or removes circles and lines. How it draws these in its dots is its own affair. The lamp page needs of it that a ring lies on its disc, that the discs of two cells do not touch, that a line between two points of a disc stays on the disc where it runs along the rows, the columns or a diagonal, and that a text in one row changes nothing outside its box.
-/

namespace LightControlMonitor.Oled

variable {Pixel : Type}

/-- The first coordinate is the vertical one, as in the driver. -/
def Near (x y r x' y' : Nat) : Prop := ((x : Int) - x') ^ 2 + ((y : Int) - y') ^ 2 ≤ (r : Int) ^ 2

def Apart (distance x y x' y' : Nat) : Prop :=
  distance ≤ ((x : Int) - x').natAbs ∨ distance ≤ ((y : Int) - y').natAbs

def Straight (y1 x1 y2 x2 : Nat) : Prop := y1 = y2 ∨ x1 = x2 ∨ ((y1 : Int) - y2).natAbs = ((x1 : Int) - x2).natAbs

def plot (display : UInt8) (points pic : Set Pixel) : Set Pixel := if display = 0 then pic \ points else pic ∪ points

/-- Discs are asked to be disjoint at the radius and the distance of the cells, and texts to keep to their box in the font of the driver, where they fit the row. -/
structure Panel (Pixel : Type) where
  disc : Nat → Nat → Nat → Set Pixel
  ring : Nat → Nat → Nat → Set Pixel
  line : Nat → Nat → Nat → Nat → Set Pixel
  box : Nat → Nat → Nat → Nat → Set Pixel
  paint : OledCmd → Set Pixel → Set Pixel
  ring_subset : ∀ x y r, ring x y r ⊆ disc x y r
  line_subset : ∀ {x y r y1 x1 y2 x2}, Straight y1 x1 y2 x2 → Near x y r y1 x1 → Near x y r y2 x2 →
    line y1 x1 y2 x2 ⊆ disc x y r
  disjoint_disc : ∀ {x y x' y'}, Apart 24 x y x' y' → Disjoint (disc x y 8) (disc x' y' 8)
  disjoint_box : ∀ {x y row column width}, row + 16 + 8 ≤ x ∨ column + width + 8 ≤ y →
    Disjoint (disc x y 8) (box row column 16 width)
  paint_clear : ∀ pic, paint .clear pic = ∅
  paint_circle : ∀ x y r fil z pic, paint (.circle x y r fil z) pic =
    plot z (if fil = 0 then ring x.toNat y.toNat r.toNat else disc x.toNat y.toNat r.toNat) pic
  paint_line : ∀ y1 x1 y2 x2 fill pic, paint (.line y1 x1 y2 x2 fill) pic =
    plot fill (line y1.toNat x1.toNat y2.toNat x2.toNat) pic
  paint_chars : ∀ y x rev s pic, x.toNat + 8 * s.length ≤ 256 →
    paint (.chars y x 16 8 rev s) pic \ box y.toNat x.toNat 16 (8 * s.length) =
      pic \ box y.toNat x.toNat 16 (8 * s.length)

namespace Panel

variable (P : Panel Pixel)

def paintAll (cmds : List OledCmd) (pic : Set Pixel) : Set Pixel := cmds.foldl (fun pic cmd => P.paint cmd pic) pic

theorem paintAll_append (cmds cmds' : List OledCmd) (pic : Set Pixel) :
    P.paintAll (cmds ++ cmds') pic = P.paintAll cmds' (P.paintAll cmds pic) :=
  List.foldl_append

theorem paintAll_clear (cmds : List OledCmd) (pic : Set Pixel) : P.paintAll (cmds ++ [.clear]) pic = ∅ := by
  rw [paintAll_append]
  exact P.paint_clear _

variable {P}

/-- A text leaves a disc alone that lies below its box or to the right of it. -/
theorem paint_chars_inter_disc {x y : Nat} {row column rev : UInt8} {s : List UInt8} (pic : Set Pixel)
    (hfits : column.toNat + 8 * s.length ≤ 256)
    (hclear : row.toNat + 16 + 8 ≤ x ∨ column.toNat + 8 * s.length + 8 ≤ y) :
    P.paint (.chars row column 16 8 rev s) pic ∩ P.disc x y 8 = pic ∩ P.disc x y 8 := by
  have hdisjoint := P.disjoint_box hclear
  ext p
  by_cases hdisc : p ∈ P.disc x y 8
  · have hbox : p ∉ P.box row.toNat column.toNat 16 (8 * s.length) := Set.disjoint_left.mp hdisjoint hdisc
    have hsame := congrArg (p ∈ ·) (P.paint_chars row column rev s pic hfits)
    simpa [hdisc, hbox] using hsame
  · simp [hdisc]

end Panel

/-! ### A panel without dots -/

namespace Ideal

def disc (x y r : Nat) : Set ℂ := Metric.closedBall ⟨x, y⟩ r

def ring (x y r : Nat) : Set ℂ := Metric.sphere ⟨x, y⟩ r

def line (y1 x1 y2 x2 : Nat) : Set ℂ := segment ℝ ⟨y1, x1⟩ ⟨y2, x2⟩

def box (row column height width : Nat) : Set ℂ :=
  {p | (row ≤ p.re ∧ p.re < row + height) ∧ column ≤ p.im ∧ p.im < column + width}

/-- The points under the characters of a text that are not blank. -/
def ink (column width : Nat) (s : List UInt8) : Set ℂ := {p | ∃ c ∈ s[⌊(p.im - column) / width⌋₊]?, c ≠ 0x20}

/-- A character is a block, and rectangles are blank. -/
def paint : OledCmd → Set ℂ → Set ℂ
  | .clear, _ => ∅
  | .line y1 x1 y2 x2 fill, pic => plot fill (line y1.toNat x1.toNat y2.toNat x2.toNat) pic
  | .circle x y r fil z, pic =>
    plot z (if fil = 0 then ring x.toNat y.toNat r.toNat else disc x.toNat y.toNat r.toNat) pic
  | .chars y x m n _ s, pic =>
    pic \ box y.toNat x.toNat m.toNat (n.toNat * s.length) ∪
      box y.toNat x.toNat m.toNat (n.toNat * s.length) ∩ ink x.toNat n.toNat s
  | .rectangle _ _ _ _ _ _, pic => pic
  | .dispOff, pic => pic
  | .dispOn, pic => pic

theorem dist_centre (x y x' y' : Nat) :
    dist (⟨x, y⟩ : ℂ) ⟨x', y'⟩ = √((((x : Int) - x') ^ 2 + ((y : Int) - y') ^ 2 : Int) : ℝ) := by
  rw [Complex.dist_eq_re_im]
  push_cast
  rfl

theorem mem_disc_of_near {x y r x' y' : Nat} (hnear : Near x y r x' y') : (⟨x', y'⟩ : ℂ) ∈ disc x y r := by
  have hreal : ((((x : Int) - x') ^ 2 + ((y : Int) - y') ^ 2 : Int) : ℝ) ≤ (((r : Int) ^ 2 : Int) : ℝ) :=
    Int.cast_le.mpr hnear
  rw [disc, Metric.mem_closedBall', dist_centre]
  apply Real.sqrt_le_iff.mpr
  exact ⟨Nat.cast_nonneg r, hreal.trans_eq (by push_cast; rfl)⟩

theorem line_subset {x y r y1 x1 y2 x2 : Nat} (_ : Straight y1 x1 y2 x2) (hfrom : Near x y r y1 x1)
    (hto : Near x y r y2 x2) : line y1 x1 y2 x2 ⊆ disc x y r :=
  (convex_closedBall _ _).segment_subset (mem_disc_of_near hfrom) (mem_disc_of_near hto)

/-- A point of a disc is within the radius of the centre in both directions. -/
theorem abs_sub_le_of_mem_disc {x y r : Nat} {p : ℂ} (hp : p ∈ disc x y r) : |p.re - x| ≤ r ∧ |p.im - y| ≤ r := by
  have hdist : dist p ⟨x, y⟩ ≤ r := hp
  rw [Complex.dist_eq] at hdist
  exact ⟨(Complex.abs_re_le_norm _).trans hdist, (Complex.abs_im_le_norm _).trans hdist⟩

theorem natAbs_sub_le {x x' r r' : Nat} {a : ℝ} (hx : |a - x| ≤ r) (hx' : |a - x'| ≤ r') :
    ((x : Int) - x').natAbs ≤ r + r' := by
  rw [abs_le] at hx hx'
  have hle : (x : ℝ) ≤ x' + (r + r') := by linarith [hx.1, hx'.2]
  have hge : (x' : ℝ) ≤ x + (r + r') := by linarith [hx.2, hx'.1]
  have hnat : x ≤ x' + (r + r') := by exact_mod_cast hle
  have hnat' : x' ≤ x + (r + r') := by exact_mod_cast hge
  omega

theorem disjoint_disc {x y x' y' : Nat} (hapart : Apart 24 x y x' y') : Disjoint (disc x y 8) (disc x' y' 8) := by
  apply Set.disjoint_left.mpr
  intro p hp hp'
  obtain ⟨hrow, hcolumn⟩ := abs_sub_le_of_mem_disc hp
  obtain ⟨hrow', hcolumn'⟩ := abs_sub_le_of_mem_disc hp'
  have hrows := natAbs_sub_le hrow hrow'
  have hcolumns := natAbs_sub_le hcolumn hcolumn'
  unfold Apart at hapart
  omega

theorem disjoint_box {x y row column width : Nat} (hclear : row + 16 + 8 ≤ x ∨ column + width + 8 ≤ y) :
    Disjoint (disc x y 8) (box row column 16 width) := by
  apply Set.disjoint_left.mpr
  intro p hdisc hbox
  obtain ⟨hrow, hcolumn⟩ := abs_sub_le_of_mem_disc hdisc
  rw [abs_le] at hrow hcolumn
  obtain ⟨⟨-, hheight⟩, -, hwidth⟩ := hbox
  rcases hclear with habove | hleft
  · have hcast : (row : ℝ) + (16 : ℕ) + (8 : ℕ) ≤ x := by exact_mod_cast habove
    linarith [hrow.1]
  · have hcast : (column : ℝ) + width + (8 : ℕ) ≤ y := by exact_mod_cast hleft
    linarith [hcolumn.1]

theorem paint_chars (y x rev : UInt8) (s : List UInt8) (pic : Set ℂ) (_ : x.toNat + 8 * s.length ≤ 256) :
    paint (.chars y x 16 8 rev s) pic \ box y.toNat x.toNat 16 (8 * s.length) =
      pic \ box y.toNat x.toNat 16 (8 * s.length) := by
  have hrows : (16 : UInt8).toNat = 16 := rfl
  have hcolumns : (8 : UInt8).toNat = 8 := rfl
  have hink : (box y.toNat x.toNat 16 (8 * s.length) ∩ ink x.toNat 8 s) \ box y.toNat x.toNat 16 (8 * s.length) = ∅ :=
    Set.sdiff_eq_empty.mpr Set.inter_subset_left
  rw [paint, hrows, hcolumns, Set.union_sdiff_distrib, Set.sdiff_sdiff, Set.union_self, hink, Set.union_empty]

theorem ring_subset (x y r : Nat) : ring x y r ⊆ disc x y r := Metric.sphere_subset_closedBall

end Ideal

def Panel.ideal : Panel ℂ where
  disc := Ideal.disc
  ring := Ideal.ring
  line := Ideal.line
  box := Ideal.box
  paint := Ideal.paint
  ring_subset := Ideal.ring_subset
  line_subset := Ideal.line_subset
  disjoint_disc := Ideal.disjoint_disc
  disjoint_box := Ideal.disjoint_box
  paint_clear := fun _ => rfl
  paint_circle := fun _ _ _ _ _ _ => rfl
  paint_line := fun _ _ _ _ _ _ => rfl
  paint_chars := Ideal.paint_chars

end LightControlMonitor.Oled
