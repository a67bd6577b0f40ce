/-!
# Letters compared without case

Markers and headings are written in Latin letters, and a line may give them in either case. The long s counts as
an s, and an i may come with or without its dot in either case.
-/

namespace Flowchart.Text

/-- The small form of a letter of the basic Latin and Latin-1 blocks and of the letters that share one. -/
def foldCase (c : Char) : Char :=
  let n := c.toNat
  if 0xc0 ≤ n ∧ n ≤ 0xde ∧ n ≠ 0xd7 then Char.ofNat (n + 32)
  else if c = 'ſ' then 's'
  else if c = 'İ' ∨ c = 'ı' then 'i'
  else if n = 0x212a then 'k'
  else if n = 0x212b then 'å'
  else c.toLower

/-- What follows `word` at the beginning of a text, the case of letters set aside; `word` is in small letters. -/
def dropCaseless? : (word s : List Char) → Option (List Char)
  | [], s => some s
  | _ :: _, [] => none
  | w :: word, c :: s => if foldCase c = w then dropCaseless? word s else none

end Flowchart.Text
