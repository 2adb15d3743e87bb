namespace RecordSieve.Text

def width (c : Char) : Nat := if c.toNat < 0x10000 then 1 else 2

def widths : List Char → Nat
  | [] => 0
  | c :: cs => width c + widths cs

def units (s : String) : Nat := widths s.toList

@[simp] theorem widths_nil : widths [] = 0 := rfl

@[simp] theorem widths_cons (c : Char) (cs : List Char) : widths (c :: cs) = width c + widths cs := rfl

@[simp] theorem widths_append (as bs : List Char) : widths (as ++ bs) = widths as + widths bs := by
  induction as with
  | nil => simp
  | cons c cs ih => simp [ih, Nat.add_assoc]

theorem width_pos (c : Char) : 0 < width c := by
  unfold width; split <;> decide

def takeUnits : Nat → List Char → List Char
  | _, [] => []
  | limit, c :: cs => if width c ≤ limit then c :: takeUnits (limit - width c) cs else []

def bytes (s : String) : List UInt8 := s.toList.flatMap String.utf8EncodeChar

def compareLists {α : Type} (compare : α → α → Ordering) : List α → List α → Ordering
  | [], [] => .eq
  | [], _ :: _ => .lt
  | _ :: _, [] => .gt
  | a :: as, b :: bs => (compare a b).then (compareLists compare as bs)

def compareBytes (a b : String) : Ordering :=
  compareLists (fun x y => compareOfLessAndEq x y) (bytes a) (bytes b)

def occursIn (part : List Char) : List Char → Bool
  | [] => part.isEmpty
  | c :: cs => part.isPrefixOf (c :: cs) || occursIn part cs

def contains (whole part : String) : Bool := occursIn part.toList whole.toList

end RecordSieve.Text
