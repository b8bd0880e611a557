import ProofDesk.Text.Character

namespace ProofDesk

abbrev Text := List Char

/-- A string literal stands for its characters wherever a text is expected. -/
instance : Coe String Text := ⟨String.toList⟩

namespace Text

def stripLeading? : Text → Text → Option Text
  | [], s => some s
  | _ :: _, [] => none
  | c :: lead, d :: s => if c = d then stripLeading? lead s else none

def stripTrailing? (trail s : Text) : Option Text :=
  (stripLeading? trail.reverse s.reverse).map List.reverse

def between? (lead trail s : Text) : Option Text :=
  (stripLeading? lead s).bind (stripTrailing? trail)

def splitFirst? (sep : Text) : Text → Option (Text × Text)
  | [] => none
  | c :: s =>
    match stripLeading? sep (c :: s) with
    | some rest => some ([], rest)
    | none => (splitFirst? sep s).map fun (left, right) => (c :: left, right)

def splitLast? (sep : Text) : Text → Option (Text × Text)
  | [] => none
  | c :: s =>
    match splitLast? sep s with
    | some (left, right) => some (c :: left, right)
    | none => (stripLeading? sep (c :: s)).map fun rest => ([], rest)

/-- Every way to cut a text around one of the separators, from left to right, also where two places of
one separator overlap.  The label of the separator comes with the two sides. -/
def splits {α : Type} (seps : List (Text × α)) : Text → List (Text × α × Text)
  | [] => []
  | c :: s =>
    (seps.filterMap fun (sep, label) =>
      (stripLeading? sep (c :: s)).map fun rest => ([], label, rest)) ++
    (splits seps s).map fun (left, label, right) => (c :: left, label, right)

/-- The pieces of a text between the characters of a class; there is one more than such
characters. -/
def fields (sep : Char → Bool) : Text → List Text
  | [] => [[]]
  | c :: s =>
    if sep c then [] :: fields sep s
    else match fields sep s with
      | field :: rest => (c :: field) :: rest
      | [] => [[c]]

def words (s : Text) : List Text := (fields isBlank s).filter fun w => !w.isEmpty

def joinWith (sep : Text) (xs : List Text) : Text := sep.intercalate xs

def collapse (s : Text) : Text := joinWith " " (words s)

/-- A carriage return belongs to the line feed after it. -/
def dropReturn (s : Text) : Text :=
  match s.getLast? with
  | some '\r' => s.dropLast
  | _ => s

/-- Lines out of the pieces between line feeds: the last piece is a line only if it is not empty. -/
def linesOfFields : List Text → List Text
  | [] => []
  | [last] => if last.isEmpty then [] else [last]
  | field :: rest => dropReturn field :: linesOfFields rest

def lines (s : Text) : List Text := linesOfFields (fields (· == '\n') s)

def trimLeft (s : Text) : Text := s.dropWhile isBlank

def trimRight (s : Text) : Text := (s.reverse.dropWhile isBlank).reverse

def trim (s : Text) : Text := trimRight (trimLeft s)

/-- The text with every occurrence replaced that `read` finds, from left to right: `read` gives
what stands for the beginning of a text and the text after that beginning.  The first argument
counts the characters that still belong to the occurrence just replaced. -/
def replaceFrom (read : Text → Option (Text × Text)) : Nat → Text → Text
  | _, [] => []
  | skip + 1, _ :: s => replaceFrom read skip s
  | 0, c :: s =>
    match read (c :: s) with
    | some (written, rest) => written ++ replaceFrom read (s.length - rest.length) s
    | none => c :: replaceFrom read 0 s

def replace (read : Text → Option (Text × Text)) (s : Text) : Text := replaceFrom read 0 s

def isName (s : Text) : Bool := !s.isEmpty && s.all isWord

def takeName? (s : Text) : Option (Text × Text) :=
  if (s.takeWhile isWord).isEmpty then none else some (s.takeWhile isWord, s.dropWhile isWord)

end Text
end ProofDesk
