-- SUMMARY: Removal of terminal control sequences from what is printed.

/-!
# Terminal control sequences

Output that does not go to a terminal is printed without control sequences. A
sequence is an escape character, an opening bracket, any number of digits,
semicolons and question marks, and one ASCII letter.
-/

namespace AsmHighlight.Text

/-- A character that may stand between the bracket and the letter of a sequence. -/
def isSequenceParameter (c : Char) : Bool :=
  c.isDigit || c == ';' || c == '?'

/-- The rest of the text after a control sequence whose escape character has been
    read, if it is one. -/
def afterSequence? : List Char → Option (List Char)
  | '[' :: rest =>
    match rest.dropWhile isSequenceParameter with
    | [] => none
    | c :: after => if c.isAlpha then some after else none
  | _ => none

/-- Removes the sequences that start in the first `fuel` characters. -/
def dropSequences : (fuel : Nat) → List Char → List Char
  | 0, cs => cs
  | _ + 1, [] => []
  | fuel + 1, c :: rest =>
    if c = Char.ofNat 0x1B then
      match afterSequence? rest with
      | some after => dropSequences fuel after
      | none => c :: dropSequences fuel rest
    else c :: dropSequences fuel rest

/-- The text without control sequences. -/
def withoutSequences (s : String) : String :=
  String.ofList (dropSequences s.length s.toList)

end AsmHighlight.Text
