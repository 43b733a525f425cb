import LightControlMonitor.Hmi.Convergence
import LightControlMonitor.Oled.Panel

/-!
# The lamp page on the panel

What `lms_status_disp` sends while the page runs: the headings in the first call, then for each cell the full disc that erases it and the mark. The page's own record of its cells is what a panel behind the pins shows: the erasing discs cover every mark and touch no other cell, and the headings stand outside all of them.
-/

namespace LightControlMonitor.Hmi

open Lms (Event)
open Oled (OledCmd Panel PinWrite Display)
open Transition (Reaches)

variable {ι : Type}

def level (b : Bool) : UInt8 := if b then 1 else 0

/-- The call behind a primitive. -/
def Primitive.bytes : Primitive → List UInt8
  | .circle x y radius fill display =>
    Oled.drawCircle (UInt8.ofNat x) (UInt8.ofNat y) (UInt8.ofNat radius) (level fill) (level display)
  | .line x0 y0 x1 y1 display =>
    Oled.drawLine (UInt8.ofNat x0) (UInt8.ofNat y0) (UInt8.ofNat x1) (UInt8.ofNat y1) (level display)

/-- The rows and texts of the calls of `oled_displayChar` in `lms_status_disp`. -/
def headings : List (UInt8 × List UInt8) :=
  [(1, [0x20, 0x20, 0x20, 0x30, 0x31, 0x20, 0x30, 0x32, 0x20, 0x30, 0x33, 0x20, 0x30, 0x34, 0x20, 0x30, 0x35, 0x20,
      0x30, 0x36, 0x20, 0x30, 0x37, 0x20, 0x30, 0x38]),
    (4, [0x30, 0x31]), (7, [0x30, 0x32]), (10, [0x30, 0x33]), (13, [0x30, 0x34]), (16, [0x30, 0x35])]

/-- What `Page.dispStep` sends on its way. -/
def Page.sends (s : Page ι) : List UInt8 :=
  match s.disp with
  | .idle => if s.firstrun then headings.flatMap fun heading => (Oled.oledDisplayChar 8 heading.1 1 heading.2).1 else []
  | .erase index _ => (drawMark 0x00 (index / 8 + 2) (index % 8 + 2) false).flatMap Primitive.bytes
  | .load _ _ => []
  | .mark index data _ => (markOf index data).flatMap Primitive.bytes

/-- The page and all that was written to the pins. -/
structure Screen (ι : Type) where
  page : Page ι
  pins : List PinWrite

/-- `hmi_test` clears the panel before the first call. -/
def Screen.Initial (s : Screen ι) : Prop :=
  s.page.Initial ∧ (∀ index, s.page.cells index = []) ∧ s.pins = Oled.sendBytes Oled.oledClear

def Screen.written (s : Screen ι) : PageAction ι → List PinWrite
  | .act _ => []
  | .disp => Oled.sendBytes s.page.sends

def Screen.NotMissed (s : Screen ι) (a : PageAction ι) : Prop := s.page.NotMissed a

section System

variable [DecidableEq ι]

def Screen.step (s : Screen ι) (a : PageAction ι) : Option (Screen ι × List Event) :=
  (s.page.step a).map fun r => ({ page := r.1, pins := s.pins ++ s.written a }, r.2)

variable (ι)

def screenSystem : Transition.System (Screen ι) (PageAction ι) Event where
  init := Screen.Initial
  enabled := fun s => s.page.Enabled
  step := Screen.step

instance decidableScreenEnabled (s : Screen ι) (a : PageAction ι) : Decidable ((screenSystem ι).enabled s a) :=
  inferInstanceAs (Decidable (s.page.Enabled a))

instance decidableScreenNotMissed (s : Screen ι) (a : PageAction ι) :
    Decidable (((screenSystem ι).restrict Screen.NotMissed).enabled s a) :=
  inferInstanceAs (Decidable ((screenSystem ι).enabled s a ∧ s.page.NotMissed a))

end System

/-! ### Commands -/

def Primitive.cmd : Primitive → OledCmd
  | .circle x y radius fill display =>
    .circle (UInt8.ofNat x) (UInt8.ofNat y) (UInt8.ofNat radius) (level fill) (level display)
  | .line x0 y0 x1 y1 display =>
    .line (UInt8.ofNat x0) (UInt8.ofNat y0) (UInt8.ofNat x1) (UInt8.ofNat y1) (level display)

def headingCmd (heading : UInt8 × List UInt8) : OledCmd := .chars ((heading.1 - 1) * 8) ((1 - 1) * 8) (8 * 2) 8 0 heading.2

def Page.cmds (s : Page ι) : List OledCmd :=
  match s.disp with
  | .idle => if s.firstrun then headings.map headingCmd else []
  | .erase index _ => (drawMark 0x00 (index / 8 + 2) (index % 8 + 2) false).map Primitive.cmd
  | .load _ _ => []
  | .mark index data _ => (markOf index data).map Primitive.cmd

theorem bytes_eq (prims : List Primitive) :
    prims.flatMap Primitive.bytes = (prims.map Primitive.cmd).flatMap OledCmd.bytes := by
  rw [List.flatMap_map]
  congr 1
  funext prim
  cases prim with
  | circle x y radius fill display => rfl
  | line x0 y0 x1 y1 display => rfl

theorem Page.sends_eq (s : Page ι) : s.sends = s.cmds.flatMap OledCmd.bytes := by
  unfold Page.sends Page.cmds
  cases s.disp with
  | idle =>
    cases s.firstrun with
    | false => rfl
    | true => rfl
  | erase index loop => exact bytes_eq _
  | load index loop => rfl
  | mark index data loop => exact bytes_eq _

theorem wellFormed_cmd (prim : Primitive) : prim.cmd.WellFormed := by
  cases prim with
  | circle x y radius fill display => trivial
  | line x0 y0 x1 y1 display => trivial

theorem Page.cmds_wellFormed (s : Page ι) : ∀ cmd ∈ s.cmds, cmd.WellFormed := by
  intro cmd hmem
  unfold Page.cmds at hmem
  split at hmem
  · split_ifs at hmem
    · obtain ⟨heading, hheading, rfl⟩ := List.mem_map.mp hmem
      revert heading
      decide
    · contradiction
  · obtain ⟨prim, -, rfl⟩ := List.mem_map.mp hmem
    exact wellFormed_cmd prim
  · contradiction
  · obtain ⟨prim, -, rfl⟩ := List.mem_map.mp hmem
    exact wellFormed_cmd prim

/-! ### Cells -/

def cellRow (index : Nat) : Nat := (index / 8 + 1) * 3 * RADIUS + RADIUS

def cellColumn (index : Nat) : Nat := (index % 8 + 1) * 3 * RADIUS + RADIUS

/-- A primitive that stays on the disc of a cell, with coordinates that fit a byte. -/
def Primitive.Inside (index : Nat) : Primitive → Prop
  | .circle x y radius _ _ => x = cellRow index ∧ y = cellColumn index ∧ radius = RADIUS
  | .line x0 y0 x1 y1 _ => (x0 < 256 ∧ y0 < 256 ∧ x1 < 256 ∧ y1 < 256) ∧ Oled.Straight x0 y0 x1 y1 ∧
      Oled.Near (cellRow index) (cellColumn index) RADIUS x0 y0 ∧
      Oled.Near (cellRow index) (cellColumn index) RADIUS x1 y1

def Primitive.display : Primitive → Bool
  | .circle _ _ _ _ display => display
  | .line _ _ _ _ display => display

theorem cellRow_bounds {index : Nat} (hindex : index < 32) : 24 ≤ cellRow index - 8 ∧ cellRow index + 8 < 256 := by
  unfold cellRow RADIUS
  omega

theorem cellColumn_bounds (index : Nat) : 24 ≤ cellColumn index - 8 ∧ cellColumn index + 8 < 256 := by
  unfold cellColumn RADIUS
  omega

/-- A step of at most a radius from the centre of a cell, told by its two parts. -/
structure Offset (index x y : Nat) (dx dy : Int) : Prop where
  row : (x : Int) = cellRow index + dx
  column : (y : Int) = cellColumn index + dy
  bounds : dx.natAbs ≤ 8 ∧ dy.natAbs ≤ 8
  near : dx ^ 2 + dy ^ 2 ≤ 64

theorem Offset.toNear {index x y : Nat} {dx dy : Int} (h : Offset index x y dx dy) :
    Oled.Near (cellRow index) (cellColumn index) RADIUS x y := by
  have hdx : (cellRow index : Int) - x = -dx := by
    rw [h.row]
    omega
  have hdy : (cellColumn index : Int) - y = -dy := by
    rw [h.column]
    omega
  rw [Oled.Near, hdx, hdy, neg_sq, neg_sq]
  exact h.near

theorem Offset.lt {index x y : Nat} {dx dy : Int} (h : Offset index x y dx dy) (hindex : index < 32) :
    x < 256 ∧ y < 256 := by
  obtain ⟨hrow, hcolumn, ⟨hdx, hdy⟩, -⟩ := h
  have hx := cellRow_bounds hindex
  have hy := cellColumn_bounds index
  omega

theorem inside_line {index x0 y0 x1 y1 : Nat} {dx0 dy0 dx1 dy1 : Int} (hindex : index < 32)
    (hfrom : Offset index x0 y0 dx0 dy0) (hto : Offset index x1 y1 dx1 dy1)
    (hstraight : dx0 = dx1 ∨ dy0 = dy1 ∨ (dx0 - dx1).natAbs = (dy0 - dy1).natAbs) (display : Bool) :
    (Primitive.line x0 y0 x1 y1 display).Inside index := by
  obtain ⟨hx0, hy0⟩ := hfrom.lt hindex
  obtain ⟨hx1, hy1⟩ := hto.lt hindex
  refine ⟨⟨hx0, hy0, hx1, hy1⟩, ?_, hfrom.toNear, hto.toNear⟩
  have hrow : (x0 : Int) - x1 = dx0 - dx1 := by
    rw [hfrom.row, hto.row]
    omega
  have hcolumn : (y0 : Int) - y1 = dy0 - dy1 := by
    rw [hfrom.column, hto.column]
    omega
  rw [Oled.Straight, hrow, hcolumn]
  rcases hstraight with h | h | h
  · exact .inl (by omega)
  · exact .inr (.inl (by omega))
  · exact .inr (.inr h)

/-- The mark by the centre of its cell. -/
theorem markOf_eq (index : Nat) (data : UInt8) :
    markOf index data =
      if data = 0x00 then [.circle (cellRow index) (cellColumn index) RADIUS true true]
      else if data = 0x0b then [.circle (cellRow index) (cellColumn index) RADIUS false true]
      else if data = 0x74 then
        [.circle (cellRow index) (cellColumn index) RADIUS false true,
          .line (cellRow index) (cellColumn index - 8) (cellRow index) (cellColumn index + 8) true]
      else if data = 0x7f then
        [.circle (cellRow index) (cellColumn index) RADIUS false true,
          .line (cellRow index - 8) (cellColumn index) (cellRow index + 8) (cellColumn index) true]
      else if data = 0xff then
        [.circle (cellRow index) (cellColumn index) RADIUS false true,
          .line (cellRow index - 5) (cellColumn index - 5) (cellRow index + 5) (cellColumn index + 5) true,
          .line (cellRow index + 5) (cellColumn index - 5) (cellRow index - 5) (cellColumn index + 5) true]
      else [] :=
  rfl

theorem inside_markOf {index : Nat} (hindex : index < 32) (data : UInt8) :
    ∀ prim ∈ markOf index data, prim.Inside index ∧ prim.display = true := by
  have hx := cellRow_bounds hindex
  have hy := cellColumn_bounds index
  have hcircle (fill : Bool) : (Primitive.circle (cellRow index) (cellColumn index) RADIUS fill true).Inside index :=
    ⟨rfl, rfl, rfl⟩
  rw [markOf_eq]
  split_ifs
  · exact List.forall_mem_singleton.mpr ⟨hcircle true, rfl⟩
  · exact List.forall_mem_singleton.mpr ⟨hcircle false, rfl⟩
  · have hleft : Offset index (cellRow index) (cellColumn index - 8) 0 (-8) :=
      ⟨by omega, by omega, by decide, by decide⟩
    have hright : Offset index (cellRow index) (cellColumn index + 8) 0 8 := ⟨by omega, by omega, by decide, by decide⟩
    exact List.forall_mem_cons.mpr ⟨⟨hcircle false, rfl⟩, List.forall_mem_singleton.mpr
      ⟨inside_line hindex hleft hright (by decide) true, rfl⟩⟩
  · have habove : Offset index (cellRow index - 8) (cellColumn index) (-8) 0 :=
      ⟨by omega, by omega, by decide, by decide⟩
    have hbelow : Offset index (cellRow index + 8) (cellColumn index) 8 0 := ⟨by omega, by omega, by decide, by decide⟩
    exact List.forall_mem_cons.mpr ⟨⟨hcircle false, rfl⟩, List.forall_mem_singleton.mpr
      ⟨inside_line hindex habove hbelow (by decide) true, rfl⟩⟩
  · have hcorner (dx dy : Int) (x y : Nat) (hx' : (x : Int) = cellRow index + dx)
        (hy' : (y : Int) = cellColumn index + dy) (hdx : dx.natAbs = 5) (hdy : dy.natAbs = 5) :
        Offset index x y dx dy := by
      refine ⟨hx', hy', by omega, ?_⟩
      rw [← Int.natAbs_sq dx, ← Int.natAbs_sq dy, hdx, hdy]
      decide
    have hfalling := inside_line hindex (hcorner (-5) (-5) (cellRow index - 5) (cellColumn index - 5) (by omega)
      (by omega) rfl rfl) (hcorner 5 5 (cellRow index + 5) (cellColumn index + 5) (by omega) (by omega) rfl rfl)
      (by decide) true
    have hrising := inside_line hindex (hcorner 5 (-5) (cellRow index + 5) (cellColumn index - 5) (by omega)
      (by omega) rfl rfl) (hcorner (-5) 5 (cellRow index - 5) (cellColumn index + 5) (by omega) (by omega) rfl rfl)
      (by decide) true
    exact List.forall_mem_cons.mpr ⟨⟨hcircle false, rfl⟩, List.forall_mem_cons.mpr ⟨⟨hfalling, rfl⟩,
      List.forall_mem_singleton.mpr ⟨hrising, rfl⟩⟩⟩
  · exact List.forall_mem_nil _

/-! ### Points -/

variable {Pixel : Type} (P : Panel Pixel)

def Primitive.points : Primitive → Set Pixel
  | .circle x y radius fill _ => if fill then P.disc x y radius else P.ring x y radius
  | .line x0 y0 x1 y1 _ => P.line x0 y0 x1 y1

def shape (prims : List Primitive) : Set Pixel := {p | ∃ prim ∈ prims, p ∈ prim.points P}

/-- The disc of a cell. -/
def cell (index : Nat) : Set Pixel := P.disc (cellRow index) (cellColumn index) RADIUS

variable {P}

theorem toNat_coordinate {x : Nat} (hx : x < 256) : (UInt8.ofNat x).toNat = x := UInt8.toNat_ofNat_of_lt hx

theorem Primitive.Inside.points_subset {index : Nat} {prim : Primitive} (h : prim.Inside index) :
    prim.points P ⊆ cell P index := by
  cases prim with
  | circle x y radius fill display =>
    obtain ⟨rfl, rfl, rfl⟩ := h
    cases fill with
    | false => exact P.ring_subset _ _ _
    | true => exact Set.Subset.refl _
  | line x0 y0 x1 y1 display => exact P.line_subset h.2.1 h.2.2.1 h.2.2.2

/-- The command of a primitive in a cell draws or removes its points. -/
theorem Primitive.Inside.paint {index : Nat} {prim : Primitive} (h : prim.Inside index) (hindex : index < 32)
    (pic : Set Pixel) : P.paint prim.cmd pic = if prim.display then pic ∪ prim.points P else pic \ prim.points P := by
  cases prim with
  | circle x y radius fill display =>
    obtain ⟨rfl, rfl, rfl⟩ := h
    have hx : cellRow index < 256 := Nat.lt_of_le_of_lt (Nat.le_add_right _ 8) (cellRow_bounds hindex).2
    have hy : cellColumn index < 256 := Nat.lt_of_le_of_lt (Nat.le_add_right _ 8) (cellColumn_bounds index).2
    rw [Primitive.cmd, P.paint_circle, toNat_coordinate hx, toNat_coordinate hy]
    cases fill <;> cases display <;> rfl
  | line x0 y0 x1 y1 display =>
    obtain ⟨⟨hx0, hy0, hx1, hy1⟩, -⟩ := h
    rw [Primitive.cmd, P.paint_line, toNat_coordinate hx0, toNat_coordinate hy0, toNat_coordinate hx1,
      toNat_coordinate hy1]
    cases display <;> rfl

/-- Cells are three radii apart. -/
theorem disjoint_cell {index terminal : Nat} (hne : index ≠ terminal) : Disjoint (cell P index) (cell P terminal) := by
  have hplaces : index / 8 ≠ terminal / 8 ∨ index % 8 ≠ terminal % 8 := by omega
  apply P.disjoint_disc
  rw [Oled.Apart, cellRow, cellRow, cellColumn, cellColumn, RADIUS]
  omega

/-! ### The picture -/

/-- Marks are added to what is shown. -/
theorem paintAll_mark {index : Nat} {prims : List Primitive} (hindex : index < 32)
    (hprims : ∀ prim ∈ prims, prim.Inside index ∧ prim.display = true) (pic : Set Pixel) :
    P.paintAll (prims.map Primitive.cmd) pic = pic ∪ shape P prims := by
  induction prims generalizing pic with
  | nil =>
    ext p
    simp [Panel.paintAll, shape]
  | cons prim prims ih =>
    obtain ⟨⟨hinside, hdisplay⟩, hrest⟩ := List.forall_mem_cons.mp hprims
    have hfirst : P.paintAll ((prim :: prims).map Primitive.cmd) pic =
        P.paintAll (prims.map Primitive.cmd) (P.paint prim.cmd pic) := rfl
    rw [hfirst, ih hrest, hinside.paint hindex, if_pos hdisplay]
    ext p
    simp [shape, or_assoc]

theorem shape_subset {index : Nat} {prims : List Primitive}
    (hprims : ∀ prim ∈ prims, prim.Inside index ∧ prim.display = true) : shape P prims ⊆ cell P index := by
  rintro p ⟨prim, hmem, hp⟩
  exact (hprims prim hmem).1.points_subset hp

theorem shape_append (prims prims' : List Primitive) : shape P (prims ++ prims') = shape P prims ∪ shape P prims' := by
  ext p
  simp [shape, or_and_right, exists_or]

/-- Erasing takes the disc of the cell away. -/
theorem paintAll_erase {index : Nat} (hindex : index < 32) (pic : Set Pixel) :
    P.paintAll ((drawMark 0x00 (index / 8 + 2) (index % 8 + 2) false).map Primitive.cmd) pic = pic \ cell P index := by
  have hinside : (Primitive.circle (cellRow index) (cellColumn index) RADIUS true false).Inside index := ⟨rfl, rfl, rfl⟩
  exact hinside.paint hindex pic

/-- The headings stand above the cells or to the left of them. -/
theorem paintAll_headings {index : Nat} (hindex : index < 32) (pic : Set Pixel) :
    P.paintAll (headings.map headingCmd) pic ∩ cell P index = pic ∩ cell P index := by
  have houtside : ∀ heading ∈ headings, 8 * heading.2.length ≤ 256 ∧
      (((heading.1 - 1) * 8).toNat + 16 + 8 ≤ 24 ∨ 8 * heading.2.length + 8 ≤ 24) := by
    decide
  have hrow := cellRow_bounds hindex
  have hcolumn := cellColumn_bounds index
  revert houtside
  generalize headings = hs
  intro houtside
  induction hs generalizing pic with
  | nil => rfl
  | cons heading hs ih =>
    obtain ⟨hfirst, hrest⟩ := List.forall_mem_cons.mp houtside
    have hhead : P.paintAll ((heading :: hs).map headingCmd) pic =
        P.paintAll (hs.map headingCmd) (P.paint (headingCmd heading) pic) := rfl
    have hleft : (((1 : UInt8) - 1) * 8).toNat = 0 := rfl
    rw [hhead, ih _ hrest]
    apply Panel.paint_chars_inter_disc
    · rw [hleft]
      omega
    · rw [hleft]
      omega

/-! ### The page on the panel -/

/-- What a panel shows that has read these commands. -/
def picture (P : Panel Pixel) (cmds : List OledCmd) : Set Pixel := P.paintAll cmds ∅

/-- The cell the display thread is at. -/
def Disp.index? : Disp → Option Nat
  | .idle => none
  | .erase index _ => some index
  | .load index _ => some index
  | .mark index _ _ => some index

structure Shown (P : Panel Pixel) (d : Display) (s : Screen ι) : Prop where
  idle : (d.run s.pins).Idle
  queued : ∀ index ∈ s.page.world.board.mb, index < 32
  drawn : ∀ index, s.page.disp.index? = some index → index < 32
  cells : ∀ index, index < 32 →
    picture P (d.run s.pins).reader.cmds ∩ cell P index = shape P (s.page.cells index)

theorem shape_nil : shape P [] = ∅ := by
  ext p
  simp [shape]

theorem Shown.initial {d : Display} {s : Screen ι} (hidle : d.Idle) (hinit : s.Initial) : Shown P d s := by
  obtain ⟨⟨⟨-, -, hmb, -⟩, -, hdisp⟩, hcells, hpins⟩ := hinit
  have hclear : s.pins = Oled.sendBytes ([OledCmd.clear].flatMap OledCmd.bytes) := hpins
  have hformed : ∀ cmd ∈ [OledCmd.clear], cmd.WellFormed := by decide
  have hread := Display.run_commands hidle hformed
  rw [← hclear] at hread
  refine ⟨hread.1, by simp [hmb], by simp [hdisp, Disp.index?], fun index _ => ?_⟩
  rw [hread.2, picture, P.paintAll_clear, hcells, shape_nil, Set.empty_inter]

/-- A call of the page is read as its commands. -/
theorem read_sends {d : Display} {s : Screen ι} (hidle : (d.run s.pins).Idle) :
    (d.run (s.pins ++ Oled.sendBytes s.page.sends)).Idle ∧
      picture P (d.run (s.pins ++ Oled.sendBytes s.page.sends)).reader.cmds =
        P.paintAll s.page.cmds (picture P (d.run s.pins).reader.cmds) := by
  have hread := Display.run_commands hidle s.page.cmds_wellFormed
  rw [← Page.sends_eq, ← Display.run_append] at hread
  refine ⟨hread.1, ?_⟩
  rw [hread.2, picture, P.paintAll_append]
  rfl

theorem cells_erase {cells : Nat → List Primitive} {pic : Set Pixel} {current index : Nat}
    (hcell : pic ∩ cell P index = shape P (cells index)) :
    (pic \ cell P current) ∩ cell P index = shape P (eraseCell cells current index) := by
  by_cases heq : index = current
  · subst index
    rw [eraseCell, Function.update_self, shape_nil, Set.sdiff_inter_self]
  · have hdisjoint : Disjoint (cell P index) (cell P current) := disjoint_cell heq
    rw [eraseCell, Function.update_of_ne heq, ← hcell]
    ext p
    have hout : p ∈ cell P index → p ∉ cell P current := fun hp => Set.disjoint_left.mp hdisjoint hp
    simp only [Set.mem_inter_iff, Set.mem_sdiff]
    tauto

theorem cells_draw {cells : Nat → List Primitive} {pic : Set Pixel} {current index : Nat} {data : UInt8}
    (hcurrent : current < 32) (hcell : pic ∩ cell P index = shape P (cells index)) :
    (pic ∪ shape P (markOf current data)) ∩ cell P index = shape P (drawCell cells current data index) := by
  have hsubset := shape_subset (P := P) (inside_markOf hcurrent data)
  rw [Set.union_inter_distrib_right, hcell]
  by_cases heq : index = current
  · subst index
    rw [drawCell, Function.update_self, shape_append, Set.inter_eq_left.mpr hsubset]
  · have hdisjoint : Disjoint (shape P (markOf current data)) (cell P index) :=
      (disjoint_cell (Ne.symm heq)).mono_left hsubset
    rw [drawCell, Function.update_of_ne heq, hdisjoint.inter_eq, Set.union_empty]

/-- A step of the display changes one cell on the panel and in the record alike. -/
theorem paint_dispStep {s s' : Page ι} {pic : Set Pixel} (hstep : s.dispStep = some s')
    (hdrawn : ∀ index, s.disp.index? = some index → index < 32)
    (hcells : ∀ index, index < 32 → pic ∩ cell P index = shape P (s.cells index)) :
    ∀ index, index < 32 → P.paintAll s.cmds pic ∩ cell P index = shape P (s'.cells index) := by
  intro index hindex
  unfold Page.dispStep at hstep
  unfold Page.cmds
  cases hdisp : s.disp with
  | idle =>
    simp only [hdisp] at hstep ⊢
    split_ifs at hstep ⊢
    · obtain rfl := Option.some.inj hstep
      rw [paintAll_headings hindex]
      exact hcells index hindex
    · split at hstep
      · obtain rfl := Option.some.inj hstep
        exact hcells index hindex
      · obtain rfl := Option.some.inj hstep
        exact hcells index hindex
  | erase current loop =>
    simp only [hdisp] at hstep ⊢
    obtain rfl := Option.some.inj hstep
    have hcurrent := hdrawn current (by rw [hdisp]; rfl)
    rw [paintAll_erase hcurrent]
    exact cells_erase (hcells index hindex)
  | load current loop =>
    simp only [hdisp] at hstep ⊢
    obtain ⟨data, -, rfl⟩ := Option.map_eq_some_iff.mp hstep
    exact hcells index hindex
  | mark current data loop =>
    simp only [hdisp] at hstep ⊢
    obtain rfl := Option.some.inj hstep
    have hcurrent := hdrawn current (by rw [hdisp]; rfl)
    rw [paintAll_mark hcurrent (inside_markOf hcurrent data)]
    exact cells_draw hcurrent (hcells index hindex)

/-- The display is handed cells of the page only. -/
theorem index_dispStep {s s' : Page ι} (hstep : s.dispStep = some s')
    (hqueued : ∀ index ∈ s.world.board.mb, index < 32) (hdrawn : ∀ index, s.disp.index? = some index → index < 32) :
    (∀ index ∈ s'.world.board.mb, index < 32) ∧ ∀ index, s'.disp.index? = some index → index < 32 := by
  unfold Page.dispStep at hstep
  split at hstep
  · split_ifs at hstep
    · obtain rfl := Option.some.inj hstep
      exact ⟨hqueued, by simp [Disp.index?]⟩
    · split at hstep
      · obtain rfl := Option.some.inj hstep
        exact ⟨hqueued, hdrawn⟩
      · rename_i index rest hmb
        obtain rfl := Option.some.inj hstep
        rw [hmb] at hqueued
        obtain ⟨hindex, hrest⟩ := List.forall_mem_cons.mp hqueued
        exact ⟨hrest, by simpa [Disp.index?] using hindex⟩
  · rename_i hdisp
    obtain rfl := Option.some.inj hstep
    exact ⟨hqueued, by simpa [Disp.index?, hdisp] using hdrawn⟩
  · rename_i hdisp
    obtain ⟨data, -, rfl⟩ := Option.map_eq_some_iff.mp hstep
    exact ⟨hqueued, by simpa [Disp.index?, hdisp] using hdrawn⟩
  · obtain rfl := Option.some.inj hstep
    refine ⟨hqueued, fun index hindex => ?_⟩
    dsimp only at hindex
    split_ifs at hindex with hnext
    · obtain rfl := Option.some.inj hindex
      exact hnext.2
    · contradiction

theorem Shown.disp {d : Display} {s : Screen ι} {page' : Page ι} (h : Shown P d s) (hstep : s.page.dispStep = some page') :
    Shown P d ⟨page', s.pins ++ Oled.sendBytes s.page.sends⟩ := by
  obtain ⟨hidle, hpicture⟩ := read_sends (P := P) h.idle
  obtain ⟨hqueued, hdrawn⟩ := index_dispStep hstep h.queued h.drawn
  refine ⟨hidle, hqueued, hdrawn, ?_⟩
  dsimp only
  rw [hpicture]
  exact paint_dispStep hstep h.drawn h.cells

section Run

variable [DecidableEq ι]

/-- Only a read touches the mailbox, with the index of its terminal. -/
theorem queued_act {w w' : Lms.World ι} {a : Lms.Action ι} {out : List Event} (hstep : w.step a = some (w', out))
    (hqueued : ∀ index ∈ w.board.mb, index < 32) : ∀ index ∈ w'.board.mb, index < 32 := by
  cases a with
  | tick reg =>
    obtain ⟨b', hb, rfl⟩ := Lms.step_tick hstep
    rcases Lms.lmsStateMachine_cases hb with ⟨-, -, rfl⟩ | ⟨-, -, rfl⟩ | ⟨-, -, -, rfl⟩ | ⟨-, -, -, rfl⟩ |
      ⟨-, hlt, hstore⟩ | ⟨-, -, -, rfl⟩
    case inr.inr.inr.inr.inl =>
      obtain ⟨-, old, mb, -, hmb, rfl⟩ := Lms.storeReply_cases hstore
      intro index hmem
      change index ∈ mb at hmem
      rw [hmb] at hmem
      split at hmem
      · rcases Fifo.mem_or_eq_of_mem_offer hmem with hold | rfl
        · exact hqueued index hold
        · exact hlt
      · exact hqueued index hmem
    all_goals exact hqueued
  | txDelay =>
    obtain ⟨b', hb, rfl⟩ := Lms.step_txDelay hstep
    rcases Lms.sendStateMachine_cases hb with ⟨-, -, rfl⟩ | ⟨-, -, _, -, -, rfl⟩ | ⟨-, -, -, rfl⟩ <;> exact hqueued
  | call i args =>
    obtain ⟨-, rfl⟩ := Lms.step_call hstep
    exact hqueued
  | stmt i =>
    obtain ⟨l, l', lms', -, hexec, rfl⟩ := Lms.step_stmt hstep
    exact hqueued

theorem Shown.act {d : Display} {s : Screen ι} {a : Lms.Action ι} {w' : Lms.World ι} {out : List Event}
    (h : Shown P d s) (hstep : s.page.world.step a = some (w', out)) :
    Shown P d ⟨{ s.page with world := w' }, s.pins ++ []⟩ := by
  rw [List.append_nil]
  exact ⟨h.idle, queued_act hstep h.queued, h.drawn, h.cells⟩

theorem shown_of_reaches {d : Display} (hidle : d.Idle) {as : List (PageAction ι)} {es : List Event} {s : Screen ι}
    (hreach : Reaches (screenSystem ι) as es s) : Shown P d s := by
  apply hreach.invariant (fun _ _ s => Shown P d s) (fun _ hinit => .initial hidle hinit)
  intro _ _ s a out s' h _ hstep
  obtain ⟨⟨page', out'⟩, hpage, heq⟩ := Option.map_eq_some_iff.mp hstep
  obtain ⟨rfl, rfl⟩ := Prod.mk.inj heq
  cases a with
  | act a =>
    obtain ⟨⟨w', out''⟩, hw, heq⟩ := Option.map_eq_some_iff.mp hpage
    obtain ⟨rfl, rfl⟩ := Prod.mk.inj heq
    exact h.act hw
  | disp =>
    obtain ⟨page'', hdisp, heq⟩ := Option.map_eq_some_iff.mp hpage
    obtain ⟨rfl, rfl⟩ := Prod.mk.inj heq
    exact h.disp hdisp

/-- At every moment between two of its steps, the panel behind the pins shows in each cell what the page has drawn there since it last erased it. -/
theorem panel_shows_cells {d : Display} (hidle : d.Idle) {as : List (PageAction ι)} {es : List Event} {s : Screen ι}
    (hreach : Reaches (screenSystem ι) as es s) (index : Nat) (hindex : index < 32) :
    picture P (d.run s.pins).reader.cmds ∩ cell P index = shape P (s.page.cells index) :=
  (shown_of_reaches hidle hreach).cells index hindex

theorem page_reaches {as : List (PageAction ι)} {es : List Event} {s : Screen ι}
    (hreach : Reaches ((screenSystem ι).restrict Screen.NotMissed) as es s) :
    Reaches ((pageSystem ι).restrict Page.NotMissed) as es s.page := by
  apply hreach.invariant (fun as es s => Reaches ((pageSystem ι).restrict Page.NotMissed) as es s.page)
  · exact fun s hinit => ⟨s.page, hinit.1, .nil⟩
  · intro as es s a out s' h henabled hstep
    obtain ⟨s₀, hinit, hrun⟩ := h
    obtain ⟨⟨page', out'⟩, hpage, heq⟩ := Option.map_eq_some_iff.mp hstep
    obtain ⟨rfl, rfl⟩ := Prod.mk.inj heq
    exact ⟨s₀, hinit, hrun.snoc henabled hpage⟩

/-- Whenever the display has nothing to do and no missed notification was dropped, every cell of the panel shows the mark of its lamp and nothing else. -/
theorem panel_shows_lamps {d : Display} (hidle : d.Idle) {as : List (PageAction ι)} {es : List Event} {s : Screen ι}
    (hreach : Reaches ((screenSystem ι).restrict Screen.NotMissed) as es s) (hfirst : s.page.firstrun = false)
    (hdisp : s.page.disp = .idle) (hmb : s.page.world.board.mb = []) (index : Nat) (data : UInt8)
    (hdata : s.page.world.board.lms.terminalState[index]? = some data) :
    picture P (d.run s.pins).reader.cmds ∩ cell P index = shape P (markOf index data) := by
  obtain ⟨hindex, -⟩ := Vector.getElem?_eq_some_iff.mp hdata
  have hcells := (shown_of_reaches (P := P) hidle hreach.of_restrict).cells index hindex
  have hcurrent := (fresh_of_reaches (page_reaches hreach)).current hfirst index data hdata
  rcases hcurrent with hqueued | hread | hshown
  · simp [hmb] at hqueued
  · simp [hdisp, Disp.WillRead] at hread
  · rw [hcells, ← hshown, Page.shown, hdisp]

end Run

def Screen.start : Screen Unit := ⟨Page.start, Oled.sendBytes Oled.oledClear⟩

theorem Screen.start_initial : Screen.start.Initial := ⟨Page.start_initial, fun _ => rfl, rfl⟩

theorem screen_oneChange_isSome : ((screenSystem Unit).exec Screen.start oneChange).isSome := by
  decide +kernel

theorem panel_shows_cells_oneChange :
    picture Panel.ideal (Display.start.run
      (((screenSystem Unit).exec Screen.start oneChange).get screen_oneChange_isSome).1.pins).reader.cmds ∩
        cell Panel.ideal 0 =
      shape Panel.ideal ((((screenSystem Unit).exec Screen.start oneChange).get screen_oneChange_isSome).1.page.cells 0) :=
  panel_shows_cells Display.start_idle (Reaches.of_exec Screen.start_initial screen_oneChange_isSome) 0 (by decide)

theorem screen_notMissed_isSome :
    (((screenSystem Unit).restrict Screen.NotMissed).exec Screen.start oneChange).isSome := by
  decide +kernel

/-- The panel shows the lamp that has changed. -/
theorem panel_shows_lamps_oneChange :
    picture Panel.ideal (Display.start.run ((((screenSystem Unit).restrict Screen.NotMissed).exec Screen.start
      oneChange).get screen_notMissed_isSome).1.pins).reader.cmds ∩ cell Panel.ideal 0 =
        shape Panel.ideal (markOf 0 0x00) :=
  panel_shows_lamps Display.start_idle (Reaches.of_exec Screen.start_initial screen_notMissed_isSome)
    (by decide +kernel) (by decide +kernel) (by decide +kernel) 0 0x00 (by decide +kernel)

end LightControlMonitor.Hmi
