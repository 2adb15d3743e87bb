namespace RecordSieve

def Text.splitOn (mark : Char) : List Char → List (List Char)
  | [] => [[]]
  | c :: cs =>
      if c = mark then [] :: splitOn mark cs
      else match splitOn mark cs with
        | [] => [[c]]
        | part :: parts => (c :: part) :: parts

/-- The lines of a text; a carriage return before a line feed belongs to the line's end. -/
def Lines.split : List Char → List (List Char)
  | [] => [[]]
  | '\r' :: '\n' :: cs => [] :: split cs
  | c :: cs =>
      if c = '\n' then [] :: split cs
      else match split cs with
        | [] => [[c]]
        | line :: lines => (c :: line) :: lines

end RecordSieve
