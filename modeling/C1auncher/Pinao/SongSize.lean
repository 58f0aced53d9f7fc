import C1auncher.Pinao.Edits

/-!
The text of a song fits in the file that a song may take.
-/

namespace C1auncher.Pinao.SongSize

open CString Json Pinao.Song Pinao.Edits List Song

structure Small (cell : Cell) : Prop where
  size : (hits cell).length ≤ 8
  playable : ∀ h ∈ hits cell, Playable h
  tied : ∀ h ∈ hits cell, h.tie = true → h.drum = 0

end C1auncher.Pinao.SongSize
