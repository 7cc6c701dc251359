/-!
# Texts and positions in them

Texts are put together with a separator between them, or with quotes around them. Positions in a
text are counted in the bytes of its UTF-8 form, and a text is cut at such positions; every position
the library hands out lies between two characters.
-/

namespace SqlPipeline.Text

/-- The texts in order, with `separator` between neighbours. -/
def join (separator : String) : List String → String
  | [] => ""
  | [s] => s
  | s :: rest => s ++ separator ++ join separator rest

/-- Writes a quoted text: `quote` on both sides, and doubled inside. -/
def enquote (quote : Char) (s : String) : String :=
  String.ofList
    (quote :: s.toList.flatMap (fun c => if c = quote then [quote, quote] else [c]) ++ [quote])

/-! ## Byte positions -/

def byteLength : List Char → Nat
  | [] => 0
  | c :: cs => c.utf8Size + byteLength cs

/-- The text from the byte position `n` on. -/
def dropBytes : Nat → List Char → List Char
  | 0, cs => cs
  | _, [] => []
  | n, c :: cs => dropBytes (n - c.utf8Size) cs

/-- The text before the byte position `n`. -/
def takeBytes : Nat → List Char → List Char
  | 0, _ => []
  | _, [] => []
  | n, c :: cs => c :: takeBytes (n - c.utf8Size) cs

def sliceBytes (first last : Nat) (cs : List Char) : List Char :=
  takeBytes (last - first) (dropBytes first cs)

@[simp] theorem byteLength_nil : byteLength [] = 0 := rfl

@[simp] theorem byteLength_cons (c : Char) (cs : List Char) :
    byteLength (c :: cs) = c.utf8Size + byteLength cs := rfl

@[simp] theorem byteLength_append (xs ys : List Char) :
    byteLength (xs ++ ys) = byteLength xs + byteLength ys := by
  induction xs with
  | nil => simp
  | cons c cs ih => simp [ih, Nat.add_assoc]

/-- Dropping as many bytes as a first part has leaves the second part. -/
theorem dropBytes_append (xs ys : List Char) : dropBytes (byteLength xs) (xs ++ ys) = ys := by
  induction xs with
  | nil => cases ys <;> rfl
  | cons c cs ih =>
    have hpos : 0 < c.utf8Size := c.utf8Size_pos
    obtain ⟨n, hn⟩ : ∃ n, byteLength (c :: cs) = n + 1 :=
      ⟨c.utf8Size + byteLength cs - 1, by rw [byteLength_cons]; omega⟩
    rw [hn, List.cons_append, dropBytes, ← hn, byteLength_cons, Nat.add_sub_cancel_left, ih]
    omega

/-- Taking as many bytes as a first part has gives that part. -/
theorem takeBytes_append (xs ys : List Char) : takeBytes (byteLength xs) (xs ++ ys) = xs := by
  induction xs with
  | nil => cases ys <;> rfl
  | cons c cs ih =>
    have hpos : 0 < c.utf8Size := c.utf8Size_pos
    obtain ⟨n, hn⟩ : ∃ n, byteLength (c :: cs) = n + 1 :=
      ⟨c.utf8Size + byteLength cs - 1, by rw [byteLength_cons]; omega⟩
    rw [hn, List.cons_append, takeBytes, ← hn, byteLength_cons, Nat.add_sub_cancel_left, ih]
    omega

end SqlPipeline.Text
