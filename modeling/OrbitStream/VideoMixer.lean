/-
OrbitStream/VideoMixer.lean

The layout of the video mixer (`video_mixer/video_mixer_position_manager.{h,cc}`,
`video_mixer/video_mixer_position.h`).

The streams fill a grid row by row, and the last row is centred if it is not full.  The
grid's geometry is that of one axis twice: cells that are further apart than they are
wide (`apart_cells`), the last of which ends where the output ends (`cell_fits`).

`UpdateVideoPosition` compares the place of a stream with a *copy* of its entry, so what
an entry remembers is for ever what its memory held when it was made.  The plugins follow
the layout in a run if and only if none is placed where its entry was made after it was
told to go elsewhere, and no entry off its first place is visited twice
(`follows_layout_iff`).
-/
import Mathlib.Algebra.Order.Ring.Int
import Mathlib.Data.List.Nodup
import OrbitStream.Lib.Run

namespace Orbit

open Lib

/-- `FLAGS_video_width` and `FLAGS_video_height`. -/
structure VideoFlags where
  videoWidth : Int := 180
  videoHeight : Int := 180
  deriving DecidableEq, Repr

/-- `VIDEO_HORIZONTIAL_SPACE`. -/
def videoHorizontialSpace : Int := 10

/-- `VIDEO_VERTICAL_SPACE`. -/
def videoVerticalSpace : Int := 10

/-- `GetColumn`. -/
def getColumn (size : Nat) : Nat :=
  match size with
  | 1 | 2 => size
  | 3 | 4 => 2
  | 5 | 6 | 7 | 8 | 9 => 3
  | _ => 4

/-- The body of the loop of `UpdateVideoPosition` up to the call of `UpdatePosition`: the
coordinates of the stream at `i` among `len`. -/
def videoPosition (flags : VideoFlags) (len i : Nat) : Int × Int :=
  let column := getColumn len
  let lastRowCount := len % column
  let maxRow := if lastRowCount > 0 then len / column + 1 else len / column
  let row := i / column
  let colPos := i % column
  let x :=
    if row > 0 ∧ row = maxRow - 1 ∧ lastRowCount > 0 then
      let totalWidth := (flags.videoWidth + videoHorizontialSpace) * column
        - videoHorizontialSpace
      let lastWidth := (flags.videoWidth + videoHorizontialSpace) * lastRowCount
        - videoHorizontialSpace
      (totalWidth - lastWidth).tdiv 2 + (flags.videoWidth + videoHorizontialSpace) * colPos
    else (flags.videoWidth + videoHorizontialSpace) * colPos
  let y := if row = 0 then 0 else (flags.videoHeight + videoVerticalSpace) * row
  (x, y)

/-- `VideoMixerPluginImpl`, as far as the manager looks at it; `id` tells objects apart. -/
structure MixerPlugin where
  id : Nat
  streamId : Int
  deriving DecidableEq, Repr

/-- `MixerPosition`.  `made` is not in the code: it is what the coordinates held when the
entry was made. -/
structure MixerPosition where
  streamId : Int
  x : Int
  y : Int
  plugin : MixerPlugin
  made : Int × Int
  deriving DecidableEq, Repr

/-- `MixerPosition::UpdatePosition`. -/
def MixerPosition.updatePosition (p : MixerPosition) (x y : Int) : MixerPosition × Bool :=
  if p.x ≠ x ∨ p.y ≠ y then ({ p with x := x, y := y }, true) else (p, false)

/-- `Rect`. -/
structure Rect where
  width : Int
  height : Int
  deriving DecidableEq, Repr

/-- A plugin and the position it is told. -/
abbrev Notice := MixerPlugin × Int × Int

/-- `VideoMixerPositionManager`; `notified` are the calls of the plugins'
`UpdateVideoPosition`, `positionUpdated` counts those of `OnPositionUpdated`. -/
structure PositionManager where
  hasListener : Bool := true
  positions : List MixerPosition := []
  notified : List Notice := []
  positionUpdated : Nat := 0

namespace PositionManager

/-- `VideoMixerPositionManager::AddStream`; the constructor of an entry leaves its
coordinates at what the memory held, `x` and `y`. -/
def addStream (m : PositionManager) (plugin : Option MixerPlugin) (x y : Int) :
    PositionManager :=
  match plugin with
  | none => m
  | some plugin =>
      if m.positions.any fun position => position.streamId = plugin.streamId then m
      else { m with positions := m.positions ++ [⟨plugin.streamId, x, y, plugin, (x, y)⟩] }

/-- The loop of `UpdateVideoPosition`, from the entry at `i` on: the calls of the plugins,
and `updated`. -/
def updateLoop (flags : VideoFlags) (len : Nat) :
    Nat → List MixerPosition → List Notice × Bool → List Notice × Bool
  | _, [], acc => acc
  | i, position :: rest, acc =>
      let xy := videoPosition flags len i
      -- `position` is a copy, and what `UpdatePosition` writes to it is dropped
      let copied := position.updatePosition xy.1 xy.2
      let acc := if copied.2 then (acc.1 ++ [(copied.1.plugin, xy.1, xy.2)], true) else acc
      updateLoop flags len (i + 1) rest acc

/-- `VideoMixerPositionManager::UpdateVideoPosition`. -/
def updateVideoPosition (flags : VideoFlags) (m : PositionManager) : PositionManager :=
  let loop := updateLoop flags m.positions.length 0 m.positions ([], false)
  { m with
    notified := m.notified ++ loop.1
    positionUpdated :=
      if loop.2 ∧ m.hasListener then m.positionUpdated + 1 else m.positionUpdated }

/-- `VideoMixerPositionManager::RemoveStream`. -/
def removeStream (m : PositionManager) (plugin : MixerPlugin) : PositionManager :=
  { m with
    positions := m.positions.eraseP fun position => position.streamId = plugin.streamId }

/-- `VideoMixerPositionManager::GetOutVideoSize`. -/
def getOutVideoSize (flags : VideoFlags) (m : PositionManager) : Rect :=
  let size := m.positions.length
  let column := getColumn size
  let row := if size % column > 0 then size / column + 1 else size / column
  { width := (flags.videoWidth + videoHorizontialSpace) * column - videoHorizontialSpace
    height := (flags.videoHeight + videoVerticalSpace) * row - videoVerticalSpace }

end PositionManager

/-! ### The grid -/

/-- The pixels of a video placed at `corner`. -/
def VideoFlags.Covers (flags : VideoFlags) (corner pixel : Int × Int) : Prop :=
  corner.1 ≤ pixel.1 ∧ pixel.1 < corner.1 + flags.videoWidth ∧
    corner.2 ≤ pixel.2 ∧ pixel.2 < corner.2 + flags.videoHeight

/-- The pixels of the output. -/
def Rect.Covers (r : Rect) (pixel : Int × Int) : Prop :=
  0 ≤ pixel.1 ∧ pixel.1 < r.width ∧ 0 ≤ pixel.2 ∧ pixel.2 < r.height

theorem getColumn_pos (size : Nat) : 0 < getColumn size := by
  unfold getColumn
  split <;> decide

section Axis

variable {size space : Int}

/-- Different cells of an axis are apart, wherever the axis begins. -/
theorem apart_cells (hsize : 0 < size) (hspace : 0 ≤ space) (start : Int) {a b : Nat}
    (hab : a < b) : start + (size + space) * a + size ≤ start + (size + space) * b := by
  have hstep : (size + space) * (a + 1) ≤ (size + space) * b :=
    Int.mul_le_mul_of_nonneg_left (by omega) (by omega)
  rw [Int.mul_add] at hstep
  omega

/-- A cell of an axis ends before the last one does. -/
theorem cell_fits (hsize : 0 < size) (hspace : 0 ≤ space) {a count : Nat} (ha : a < count) :
    (size + space) * a + size ≤ (size + space) * count - space := by
  have hstep : (size + space) * (a + 1) ≤ (size + space) * count :=
    Int.mul_le_mul_of_nonneg_left (by omega) (by omega)
  rw [Int.mul_add] at hstep
  omega

theorem cell_nonneg (hsize : 0 < size) (hspace : 0 ≤ space) (a : Nat) :
    0 ≤ (size + space) * a :=
  Int.mul_nonneg (by omega) (by omega)

end Axis

/-- Where a row begins: the last one is centred if it is not full. -/
def rowStart (flags : VideoFlags) (len row : Nat) : Int :=
  if row > 0 ∧ row = len / getColumn len ∧ len % getColumn len > 0 then
    (((flags.videoWidth + videoHorizontialSpace) * getColumn len - videoHorizontialSpace)
      - ((flags.videoWidth + videoHorizontialSpace) * (len % getColumn len : Nat)
        - videoHorizontialSpace)).tdiv 2
  else 0

section Layout

variable {flags : VideoFlags} {len i j : Nat}

/-- `x`, by the row and the column of the stream. -/
theorem videoPosition_fst : (videoPosition flags len i).1
    = rowStart flags len (i / getColumn len)
      + (flags.videoWidth + videoHorizontialSpace) * (i % getColumn len : Nat) := by
  have hlast : (len % getColumn len > 0 →
      (if len % getColumn len > 0 then len / getColumn len + 1 else len / getColumn len) - 1
        = len / getColumn len) := by
    intro hrem
    rw [if_pos hrem, Nat.add_sub_cancel]
  simp only [videoPosition, rowStart, ite_add, Int.zero_add]
  refine if_congr ?_ rfl rfl
  constructor
  · rintro ⟨hpos, hrow, hrem⟩
    exact ⟨hpos, hrow.trans (hlast hrem), hrem⟩
  · rintro ⟨hpos, hrow, hrem⟩
    exact ⟨hpos, hrow.trans (hlast hrem).symm, hrem⟩

theorem videoPosition_snd : (videoPosition flags len i).2
    = (flags.videoHeight + videoVerticalSpace) * (i / getColumn len : Nat) := by
  simp only [videoPosition]
  split
  · rename_i hrow
    rw [hrow]
    exact (Int.mul_zero _).symm
  · rfl

/-- A row begins in the output, and its streams end there. -/
theorem rowStart_fits (hw : 0 < flags.videoWidth) (hi : i < len) :
    0 ≤ rowStart flags len (i / getColumn len) ∧
      (videoPosition flags len i).1 + flags.videoWidth
        ≤ (flags.videoWidth + videoHorizontialSpace) * getColumn len
          - videoHorizontialSpace := by
  have hcol : i % getColumn len < getColumn len := Nat.mod_lt _ (getColumn_pos len)
  have hspace : (0 : Int) ≤ videoHorizontialSpace := by decide
  rw [videoPosition_fst]
  unfold rowStart
  split
  · -- the centred row: its last stream ends as far from the border as its first begins
    rename_i hlast
    obtain ⟨-, hrow, hrem⟩ := hlast
    have hbefore : i % getColumn len < len % getColumn len := by
      have hdi := Nat.div_add_mod i (getColumn len)
      have hdl := Nat.div_add_mod len (getColumn len)
      rw [hrow] at hdi
      omega
    have hfits := cell_fits hw hspace hbefore
    have hless : len % getColumn len < getColumn len := Nat.mod_lt _ (getColumn_pos len)
    have hrest := cell_fits hw hspace hless
    have hnonneg := cell_nonneg hw hspace (i % getColumn len)
    rw [Int.tdiv_eq_ediv_of_nonneg (by omega)]
    omega
  · have hfits := cell_fits hw hspace hcol
    omega

/-- The row of a stream is a row of the output. -/
theorem row_lt (hi : i < len) : i / getColumn len
    < if len % getColumn len > 0 then len / getColumn len + 1 else len / getColumn len := by
  have hpos := getColumn_pos len
  split
  · exact Nat.lt_succ_of_le (Nat.div_le_div_right (Nat.le_of_lt hi))
  · rename_i hrem
    apply Nat.div_lt_of_lt_mul
    have hdl := Nat.div_add_mod len (getColumn len)
    omega

/-- A video of the layout lies in the output. -/
theorem video_inside {m : PositionManager} (hw : 0 < flags.videoWidth)
    (hh : 0 < flags.videoHeight) (hi : i < m.positions.length) {pixel : Int × Int}
    (hpixel : flags.Covers (videoPosition flags m.positions.length i) pixel) :
    (m.getOutVideoSize flags).Covers pixel := by
  obtain ⟨hx, hx', hy, hy'⟩ := hpixel
  have hvert : (0 : Int) ≤ videoVerticalSpace := by decide
  have hhor : (0 : Int) ≤ videoHorizontialSpace := by decide
  obtain ⟨hstart, hend⟩ := rowStart_fits hw hi
  have hcell := cell_nonneg hw hhor (i % getColumn m.positions.length)
  have hbottom := cell_fits hh hvert (row_lt hi)
  have htop := cell_nonneg hh hvert (i / getColumn m.positions.length)
  rw [videoPosition_fst] at hx
  rw [videoPosition_snd] at hy hy'
  refine ⟨?_, ?_, ?_, ?_⟩
  · show 0 ≤ pixel.1
    omega
  · exact Int.lt_of_lt_of_le hx' hend
  · show 0 ≤ pixel.2
    omega
  · exact Int.lt_of_lt_of_le hy' hbottom

variable (len) in
/-- Of two streams the one in front is placed to the left in the same row or in a row
above. -/
theorem video_before (hw : 0 < flags.videoWidth) (hh : 0 < flags.videoHeight) (hij : i < j) :
    (videoPosition flags len i).1 + flags.videoWidth ≤ (videoPosition flags len j).1 ∨
      (videoPosition flags len i).2 + flags.videoHeight ≤ (videoPosition flags len j).2 := by
  have hvert : (0 : Int) ≤ videoVerticalSpace := by decide
  have hhor : (0 : Int) ≤ videoHorizontialSpace := by decide
  have hrow : i / getColumn len ≤ j / getColumn len := Nat.div_le_div_right (Nat.le_of_lt hij)
  rcases Nat.lt_or_eq_of_le hrow with habove | hsame
  · right
    have hcells := apart_cells hh hvert 0 habove
    rw [videoPosition_snd, videoPosition_snd]
    omega
  · left
    have hcol : i % getColumn len < j % getColumn len := by
      have hdi := Nat.div_add_mod i (getColumn len)
      have hdj := Nat.div_add_mod j (getColumn len)
      rw [hsame] at hdi
      omega
    rw [videoPosition_fst, videoPosition_fst, hsame]
    exact apart_cells hw hhor _ hcol

/-- Two videos of the layout have no pixel in common. -/
theorem video_disjoint (hw : 0 < flags.videoWidth) (hh : 0 < flags.videoHeight)
    (hij : i ≠ j) {pixel : Int × Int} (hi : flags.Covers (videoPosition flags len i) pixel) :
    ¬ flags.Covers (videoPosition flags len j) pixel := by
  intro hj
  obtain ⟨hix, hix', hiy, hiy'⟩ := hi
  obtain ⟨hjx, hjx', hjy, hjy'⟩ := hj
  rcases Nat.lt_or_gt_of_ne hij with hlt | hlt
  · rcases video_before len hw hh hlt with h | h <;> omega
  · rcases video_before len hw hh hlt with h | h <;> omega

end Layout

/-- The layout is valid: for every number of streams and every size of the videos, the
videos are pairwise disjoint and lie in the output. -/
theorem layout_valid (flags : VideoFlags) (m : PositionManager) (hw : 0 < flags.videoWidth)
    (hh : 0 < flags.videoHeight) :
    (∀ i j, i < m.positions.length → j < m.positions.length → i ≠ j → ∀ pixel,
      ¬ (flags.Covers (videoPosition flags m.positions.length i) pixel ∧
        flags.Covers (videoPosition flags m.positions.length j) pixel)) ∧
    ∀ i < m.positions.length, ∀ pixel,
      flags.Covers (videoPosition flags m.positions.length i) pixel →
        (m.getOutVideoSize flags).Covers pixel := by
  refine ⟨?_, ?_⟩
  · rintro i j - - hij pixel ⟨hi, hj⟩
    exact video_disjoint hw hh hij hi hj
  · intro i hi pixel hpixel
    exact video_inside hw hh hi hpixel

theorem layout_valid_three :
    videoPosition {} 3 2 = (95, 190) ∧
      ∀ pixel, VideoFlags.Covers {} (95, 190) pixel → (Rect.mk 370 370).Covers pixel :=
  ⟨by decide, fun pixel hpixel =>
    (layout_valid {} { positions := [⟨1, 0, 0, ⟨0, 1⟩, (0, 0)⟩, ⟨2, 0, 0, ⟨1, 2⟩, (0, 0)⟩,
      ⟨3, 0, 0, ⟨2, 3⟩, (0, 0)⟩] } (by decide) (by decide)).2 2 (by decide) pixel hpixel⟩

/-! ### What the plugins are told -/

namespace PositionManager

/-- Where the plugin was last told to go: its own `x_` and `y_`. -/
def lastNotified (m : PositionManager) (plugin : MixerPlugin) : Option (Int × Int) :=
  ((m.notified.filter fun notice => notice.1 = plugin).getLast?).map Prod.snd

/-- The calls of the plugins that the loop makes for the entries from `i` on. -/
def notices (flags : VideoFlags) (len : Nat) : Nat → List MixerPosition → List Notice
  | _, [] => []
  | i, position :: rest =>
      if (position.x, position.y) = videoPosition flags len i then
        notices flags len (i + 1) rest
      else (position.plugin, videoPosition flags len i) :: notices flags len (i + 1) rest

variable {flags : VideoFlags} {len : Nat}

/-- An entry changes if it remembers another place; the plugin it names is the same. -/
theorem updatePosition_eq (position : MixerPosition) (xy : Int × Int) :
    (position.updatePosition xy.1 xy.2).1.plugin = position.plugin ∧
      ((position.updatePosition xy.1 xy.2).2 = true ↔ (position.x, position.y) ≠ xy) := by
  unfold MixerPosition.updatePosition
  have hne : (position.x ≠ xy.1 ∨ position.y ≠ xy.2) ↔ (position.x, position.y) ≠ xy := by
    rw [← not_and_or, ← Prod.ext_iff (x := (position.x, position.y))]
  split
  · rename_i h
    exact ⟨rfl, fun _ => hne.mp h, fun _ => rfl⟩
  · rename_i h
    exact ⟨rfl, fun hf => absurd hf Bool.false_ne_true, fun hn => absurd (hne.mpr hn) h⟩

/-- The loop makes these calls, and `updated` says whether there was one. -/
theorem updateLoop_eq (positions : List MixerPosition) (i : Nat) (acc : List Notice × Bool) :
    updateLoop flags len i positions acc
      = (acc.1 ++ notices flags len i positions,
        acc.2 || !(notices flags len i positions).isEmpty) := by
  induction positions generalizing i acc with
  | nil => simp [updateLoop, notices]
  | cons position rest ih =>
      obtain ⟨hplugin, hchanged⟩ := updatePosition_eq position (videoPosition flags len i)
      rw [updateLoop, notices]
      by_cases h : (position.x, position.y) = videoPosition flags len i
      · have hstays : ¬ (position.updatePosition (videoPosition flags len i).1
            (videoPosition flags len i).2).2 = true := fun hc => hchanged.mp hc h
        rw [if_pos h, if_neg hstays]
        exact ih (i + 1) acc
      · rw [if_neg h, if_pos (hchanged.mpr h), ih, hplugin]
        simp

/-- The calls of the plugins that an update makes. -/
theorem updateVideoPosition_notified (m : PositionManager) :
    (updateVideoPosition flags m).notified
      = m.notified ++ notices flags m.positions.length 0 m.positions := by
  unfold updateVideoPosition
  rw [updateLoop_eq]
  rfl

/-- The listener is called if a plugin was. -/
theorem updateVideoPosition_updated (m : PositionManager) :
    (updateVideoPosition flags m).positionUpdated
      = if notices flags m.positions.length 0 m.positions ≠ [] ∧ m.hasListener then
          m.positionUpdated + 1
        else m.positionUpdated := by
  unfold updateVideoPosition
  rw [updateLoop_eq]
  simp

/-- The plugins of the entries that remember another place are called, with the place of
the layout. -/
theorem mem_notices {positions : List MixerPosition} {i : Nat} {notice : Notice} :
    notice ∈ notices flags len i positions ↔
      ∃ k position, positions[k]? = some position ∧
        (position.x, position.y) ≠ videoPosition flags len (i + k) ∧
        notice = (position.plugin, videoPosition flags len (i + k)) := by
  induction positions generalizing i with
  | nil => simp [notices]
  | cons position rest ih =>
      rw [notices]
      constructor
      · intro h
        have hcases : (position.x, position.y) ≠ videoPosition flags len i ∧
            notice = (position.plugin, videoPosition flags len i) ∨
            notice ∈ notices flags len (i + 1) rest := by
          split at h
          · exact .inr h
          · rename_i hne
            exact (List.mem_cons.mp h).imp (fun he => ⟨hne, he⟩) id
        rcases hcases with ⟨hne, he⟩ | hrest
        · exact ⟨0, position, rfl, hne, he⟩
        · obtain ⟨k, p, hp, hne, he⟩ := ih.mp hrest
          rw [Nat.add_assoc, Nat.add_comm 1 k] at hne he
          exact ⟨k + 1, p, hp, hne, he⟩
      · rintro ⟨k, p, hp, hne, he⟩
        cases k with
        | zero =>
            obtain rfl : position = p := Option.some.inj hp
            rw [Nat.add_zero] at hne he
            rw [if_neg hne]
            exact List.mem_cons.mpr (.inl he)
        | succ k =>
            have hrest : notice ∈ notices flags len (i + 1) rest := by
              rw [ih]
              rw [← Nat.add_assoc, Nat.add_right_comm] at hne he
              exact ⟨k, p, hp, hne, he⟩
            split
            · exact hrest
            · exact List.mem_cons.mpr (.inr hrest)

end PositionManager

/-- A call of the manager; a new entry is made with the coordinates `x` and `y`. -/
inductive MixerCall
  | addStream (plugin : Option MixerPlugin) (x y : Int)
  | removeStream (plugin : MixerPlugin)
  | updateVideoPosition
  deriving DecidableEq, Repr

/-- A manager in a run; `settled` says that there was an update and no stream was added
or removed since. -/
structure MixerRun where
  manager : PositionManager := {}
  settled : Bool := false

namespace MixerRun

/-- One call. -/
def call (flags : VideoFlags) (s : MixerRun) : MixerCall → MixerRun
  | .addStream plugin x y =>
      let m := s.manager.addStream plugin x y
      { manager := m, settled := s.settled && m.positions == s.manager.positions }
  | .removeStream plugin =>
      let m := s.manager.removeStream plugin
      { manager := m, settled := s.settled && m.positions == s.manager.positions }
  | .updateVideoPosition =>
      { manager := s.manager.updateVideoPosition flags, settled := true }

/-- What an update should do: every plugin that was told to go elsewhere than where its
entry was made was last told to go to its place in the layout, and nothing is called if no
stream was added or removed since the update before. -/
def Follows (flags : VideoFlags) (s : MixerRun) : MixerCall → Prop
  | .updateVideoPosition =>
      let m := s.manager.updateVideoPosition flags
      (∀ i position, m.positions[i]? = some position →
        ∀ xy, m.lastNotified position.plugin = some xy → xy ≠ position.made →
          xy = videoPosition flags m.positions.length i) ∧
      (s.settled = true → m.notified = s.manager.notified ∧
        m.positionUpdated = s.manager.positionUpdated)
  | _ => True

/-- An entry whose place in the layout is where it was made has not been told to go
elsewhere; if no stream was added or removed since the update before, all entries are
placed where they were made. -/
def AtFirstPlace (flags : VideoFlags) (s : MixerRun) : MixerCall → Prop
  | .updateVideoPosition =>
      ∀ i position, s.manager.positions[i]? = some position →
        (videoPosition flags s.manager.positions.length i = position.made →
          ∀ xy, s.manager.lastNotified position.plugin = some xy → xy = position.made) ∧
        (s.settled = true →
          videoPosition flags s.manager.positions.length i = position.made)
  | _ => True

/-- Every entry still remembers what its memory held, is named after its plugin's stream,
and no two have one stream. -/
structure Entries (positions : List MixerPosition) : Prop where
  remembers : ∀ position ∈ positions, (position.x, position.y) = position.made
  named : ∀ position ∈ positions, position.plugin.streamId = position.streamId
  nodup : (positions.map MixerPosition.streamId).Nodup

theorem Entries.sublist {l l' : List MixerPosition} (h : Entries l) (hsub : l'.Sublist l) :
    Entries l' :=
  ⟨fun p hp => h.remembers p (hsub.subset hp), fun p hp => h.named p (hsub.subset hp),
    h.nodup.sublist (hsub.map _)⟩

/-- A stream without an entry gets one. -/
theorem Entries.concat {l : List MixerPosition} (h : Entries l) (plugin : MixerPlugin)
    (x y : Int) (hfresh : ∀ position ∈ l, position.streamId ≠ plugin.streamId) :
    Entries (l ++ [⟨plugin.streamId, x, y, plugin, (x, y)⟩]) := by
  refine ⟨?_, ?_, ?_⟩
  · intro position hp
    rcases List.mem_append.mp hp with hold | hlast
    · exact h.remembers position hold
    · rw [List.mem_singleton.mp hlast]
  · intro position hp
    rcases List.mem_append.mp hp with hold | hlast
    · exact h.named position hold
    · rw [List.mem_singleton.mp hlast]
  · rw [List.map_append, List.nodup_append]
    refine ⟨h.nodup, List.nodup_singleton _, ?_⟩
    intro id hid id' hid'
    obtain ⟨position, hp, rfl⟩ := List.mem_map.mp hid
    rw [List.mem_singleton.mp hid']
    exact hfresh position hp

/-- An entry is found by its plugin. -/
theorem Entries.unique {l : List MixerPosition} (h : Entries l) {i j : Nat}
    {p q : MixerPosition} (hp : l[i]? = some p) (hq : l[j]? = some q)
    (hplugin : p.plugin = q.plugin) : i = j := by
  have hid : p.streamId = q.streamId := by
    rw [← h.named p (List.mem_of_getElem? hp), ← h.named q (List.mem_of_getElem? hq), hplugin]
  have hi : (l.map MixerPosition.streamId)[i]? = some p.streamId := by
    rw [List.getElem?_map, hp]
    rfl
  have hj : (l.map MixerPosition.streamId)[j]? = some p.streamId := by
    rw [List.getElem?_map, hq, hid]
    rfl
  obtain ⟨hlt, -⟩ := List.getElem?_eq_some_iff.mp hi
  exact (List.getElem?_inj hlt h.nodup).mp (hi.trans hj.symm)

variable {flags : VideoFlags} {s : MixerRun}

/-- No call writes to an entry. -/
theorem entries_call (h : Entries s.manager.positions) (c : MixerCall) :
    Entries (s.call flags c).manager.positions := by
  cases c with
  | addStream plugin x y =>
      show Entries (s.manager.addStream plugin x y).positions
      unfold PositionManager.addStream
      split
      · exact h
      · rename_i plugin
        split
        · exact h
        · rename_i hnew
          apply h.concat plugin x y
          intro position hp he
          exact hnew (List.any_eq_true.mpr ⟨position, hp, decide_eq_true he⟩)
  | removeStream plugin => exact h.sublist List.eraseP_sublist
  | updateVideoPosition => exact h

variable (flags) in
/-- What the plugin of an entry was told last, after an update. -/
theorem lastNotified_update {m : PositionManager} (h : Entries m.positions) {i : Nat}
    {position : MixerPosition} (hi : m.positions[i]? = some position) :
    (m.updateVideoPosition flags).lastNotified position.plugin
      = if videoPosition flags m.positions.length i = position.made then
          m.lastNotified position.plugin
        else some (videoPosition flags m.positions.length i) := by
  have hmade := h.remembers position (List.mem_of_getElem? hi)
  unfold PositionManager.lastNotified
  rw [PositionManager.updateVideoPosition_notified, List.filter_append]
  -- the calls that concern this plugin are for this entry
  have hmine : ∀ notice ∈ (PositionManager.notices flags m.positions.length 0
      m.positions).filter (fun notice => notice.1 = position.plugin),
      videoPosition flags m.positions.length i ≠ position.made ∧
        notice.2 = videoPosition flags m.positions.length i := by
    intro notice hn
    obtain ⟨hmem, hplugin⟩ := List.mem_filter.mp hn
    obtain ⟨k, q, hq, hne, rfl⟩ := PositionManager.mem_notices.mp hmem
    obtain rfl : k = i := h.unique hq hi (of_decide_eq_true hplugin)
    obtain rfl : q = position := Option.some.inj (hq.symm.trans hi)
    rw [Nat.zero_add, hmade] at hne
    rw [Nat.zero_add]
    exact ⟨fun he => hne he.symm, rfl⟩
  split
  · rename_i he
    have hnone : (PositionManager.notices flags m.positions.length 0 m.positions).filter
        (fun notice => notice.1 = position.plugin) = [] := by
      apply List.eq_nil_iff_forall_not_mem.mpr
      intro notice hn
      exact (hmine notice hn).1 he
    rw [hnone, List.append_nil]
  · rename_i hne
    have hcalled : (position.plugin, videoPosition flags m.positions.length i)
        ∈ (PositionManager.notices flags m.positions.length 0 m.positions).filter
          fun notice => notice.1 = position.plugin := by
      rw [List.mem_filter, PositionManager.mem_notices]
      refine ⟨⟨i, position, hi, ?_, by rw [Nat.zero_add]⟩, decide_eq_true rfl⟩
      rw [Nat.zero_add, hmade]
      exact fun he => hne he.symm
    have hsome := List.ne_nil_of_mem hcalled
    rw [List.getLast?_append_of_ne_nil _ hsome, List.getLast?_eq_some_getLast hsome,
      Option.map_some, (hmine _ (List.getLast_mem hsome)).2]

/-- An update calls nothing if and only if every entry is placed where it was made. -/
theorem silent_iff {m : PositionManager} (h : Entries m.positions) :
    ((m.updateVideoPosition flags).notified = m.notified ∧
      (m.updateVideoPosition flags).positionUpdated = m.positionUpdated) ↔
    ∀ i position, m.positions[i]? = some position →
      videoPosition flags m.positions.length i = position.made := by
  have hnone : PositionManager.notices flags m.positions.length 0 m.positions = [] ↔
      ∀ i position, m.positions[i]? = some position →
        videoPosition flags m.positions.length i = position.made := by
    constructor
    · intro hnil i position hi
      by_contra hne
      have hmem : (position.plugin, videoPosition flags m.positions.length i)
          ∈ PositionManager.notices flags m.positions.length 0 m.positions := by
        rw [PositionManager.mem_notices]
        refine ⟨i, position, hi, ?_, by rw [Nat.zero_add]⟩
        rw [Nat.zero_add, h.remembers position (List.mem_of_getElem? hi)]
        exact fun he => hne he.symm
      rw [hnil] at hmem
      exact absurd hmem List.not_mem_nil
    · intro hall
      apply List.eq_nil_iff_forall_not_mem.mpr
      intro notice hn
      obtain ⟨k, q, hq, hne, -⟩ := PositionManager.mem_notices.mp hn
      rw [Nat.zero_add, h.remembers q (List.mem_of_getElem? hq)] at hne
      exact hne (hall k q hq).symm
  rw [PositionManager.updateVideoPosition_notified,
    PositionManager.updateVideoPosition_updated, List.append_right_eq_self, ← hnone]
  constructor
  · exact fun hs => hs.1
  · intro hs
    exact ⟨hs, if_neg fun hc => hc.1 hs⟩

/-- One update does what it should exactly under the condition. -/
theorem follows_iff (h : Entries s.manager.positions) (c : MixerCall) :
    Follows flags s c ↔ AtFirstPlace flags s c := by
  cases c with
  | addStream plugin x y => exact Iff.rfl
  | removeStream plugin => exact Iff.rfl
  | updateVideoPosition =>
      show (_ ∧ (s.settled = true → _)) ↔ _
      rw [silent_iff h]
      constructor
      · rintro ⟨htold, hsilent⟩ i position hi
        refine ⟨?_, fun hs => hsilent hs i position hi⟩
        intro hplace xy hxy
        by_contra hne
        have hlast := lastNotified_update flags h hi
        rw [if_pos hplace] at hlast
        exact hne ((htold i position hi xy (hlast.trans hxy) hne).trans hplace)
      · intro hfirst
        refine ⟨?_, fun hs i position hi => (hfirst i position hi).2 hs⟩
        intro i position hi xy hxy hne
        rw [lastNotified_update flags h hi] at hxy
        split at hxy
        · rename_i hplace
          exact absurd ((hfirst i position hi).1 hplace xy hxy) hne
        · exact (Option.some.inj hxy).symm

/-- The plugins follow the layout in a run if and only if, at every update, no entry is
placed where it was made after its plugin was told to go elsewhere, and no entry is placed
elsewhere if no stream was added or removed since the update before. -/
theorem follows_layout_iff (flags : VideoFlags) (hasListener : Bool)
    (calls : List MixerCall) :
    Throughout (call flags) (Follows flags) { manager := { hasListener := hasListener } } calls ↔
      Throughout (call flags) (AtFirstPlace flags)
        { manager := { hasListener := hasListener } } calls :=
  throughout_congr (P := fun s => Entries s.manager.positions) (fun _ c h => follows_iff h c)
    (fun _ c h _ => entries_call h c) calls ⟨by simp, by simp, by simp⟩

/-- Two streams whose entries were made at the origin: the second is told to go to
`(190, 0)`, and not told to come back when the first leaves. -/
theorem not_follows_layout : ¬ Throughout (call {}) (Follows {}) {}
    [.addStream (some ⟨0, 1⟩) 0 0, .addStream (some ⟨1, 2⟩) 0 0, .updateVideoPosition,
      .removeStream ⟨0, 1⟩, .updateVideoPosition] := by
  intro h
  have hlast := h.2.2.2.2.1.1 0 ⟨2, 0, 0, ⟨1, 2⟩, (0, 0)⟩ (by decide) (190, 0) (by decide)
    (by decide)
  exact absurd hlast (by decide)

end MixerRun

end Orbit
