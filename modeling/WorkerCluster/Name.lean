/-!
# Names

Tasks and groups have names of ASCII letters, digits, `_`, `.` and `-` that do not end in `-`.
-/

namespace WorkerCluster

/-- Whether a character may occur in a name. -/
def isNameChar (c : Char) : Bool := c.isAlphanum || c = '-' || c = '_' || c = '.'

/-- Whether a text is a name: one to 64 bytes of name characters, the last one no hyphen. -/
def isValidName (s : String) : Bool :=
  !s.isEmpty && s.utf8ByteSize ≤ 64 && s.toList.getLast? != some '-' && s.toList.all isNameChar

end WorkerCluster
