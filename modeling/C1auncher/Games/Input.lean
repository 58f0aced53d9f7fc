import Mathlib.Data.UInt

/-!
What the games read: key events, the answer of the pause overlay, and the draws of the generator.
-/

namespace C1auncher.Games.Input

inductive Key
  | none | up | down | left | right | ok | back | del | pause | wakeup | space | shift
  | volUp | volDown | char | quit
deriving DecidableEq

structure KeyEvent where
  key : Key
  ch : UInt8
  isRepeat : Bool
deriving DecidableEq

/-- What the player chose in the pause overlay: `quit` is the answer `false` of `ui_pause_run`. -/
inductive PauseSel
  | resume | restart | quit
deriving DecidableEq

/-- The code of a letter or digit key. -/
def code (c : Char) : UInt8 := c.toNat.toUInt8

/-- A number below `n` from a number of the generator that `rng_range` has accepted. -/
def rngRange (v n : UInt32) : UInt32 := if n ≤ 1 then 0 else v % n

lemma rngRange_lt (v : UInt32) {n : UInt32} (h : 0 < n) : rngRange v n < n := by
  unfold rngRange
  split
  · exact h
  · exact UInt32.mod_lt v h

/-!
The keys of the device: what a key code of the kernel stands for.
-/

def row1 : List Char := ['q', 'w', 'e', 'r', 't', 'y', 'u', 'i', 'o', 'p']

def row2 : List Char := ['a', 's', 'd', 'f', 'g', 'h', 'j', 'k', 'l']

def row3 : List Char := ['z', 'x', 'c', 'v', 'b', 'n', 'm']

def digits : List Char := ['1', '2', '3', '4', '5', '6', '7', '8', '9', '0']

/-- The keys that are no letters; the first letters of two of them are taken out of the rows. -/
def special : ℕ → Option Key
  | 103 => some .up
  | 108 => some .down
  | 105 => some .left
  | 106 => some .right
  | 28 => some .ok
  | 352 => some .ok
  | 158 => some .back
  | 111 => some .del
  | 143 => some .wakeup
  | 57 => some .space
  | 42 => some .shift
  | 114 => some .volDown
  | 115 => some .volUp
  | 16 => some .quit
  | 25 => some .pause
  | 102 => some .none
  | _ => none

/-- The key of a code, and its letter or digit. -/
def mapKey (c : ℕ) : Key × UInt8 :=
  match special c with
  | some key => (key, 0)
  | none =>
    if 16 ≤ c ∧ c ≤ 25 then (.char, code (row1.getD (c - 16) ' '))
    else if 30 ≤ c ∧ c ≤ 38 then (.char, code (row2.getD (c - 30) ' '))
    else if 44 ≤ c ∧ c ≤ 50 then (.char, code (row3.getD (c - 44) ' '))
    else if 2 ≤ c ∧ c ≤ 11 then (.char, code (digits.getD (c - 2) ' '))
    else (.none, 0)

end C1auncher.Games.Input
