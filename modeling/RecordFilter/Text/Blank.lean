import RecordFilter.Text.Basic

/-! # White space

The characters with the Unicode property White_Space, and trimming by it. -/

namespace RecordFilter

/-- A character with the property White_Space. -/
def isBlank (c : Char) : Bool :=
  let n := c.toNat
  (9 ≤ n && n ≤ 13) || n == 0x20 || n == 0x85 || n == 0xA0 || n == 0x1680 ||
    (0x2000 ≤ n && n ≤ 0x200A) || n == 0x2028 || n == 0x2029 || n == 0x202F || n == 0x205F ||
    n == 0x3000

namespace Text

/-- The text without the white space at its start. -/
def trimStart (t : Text) : Text := t.dropWhile isBlank

/-- The text without the white space at its end. -/
def trimEnd (t : Text) : Text := (t.reverse.dropWhile isBlank).reverse

/-- The text without the white space at either end. -/
def trim (t : Text) : Text := t.trimStart.trimEnd

/-- Whether a text holds nothing but white space. -/
def isAllBlank (t : Text) : Bool := t.all isBlank

@[simp] theorem trimStart_nil : trimStart [] = [] := rfl

theorem trimStart_cons (c : Char) (t : Text) :
    trimStart (c :: t) = if isBlank c then trimStart t else c :: t := by
  simp [trimStart, List.dropWhile_cons]

/-- No white space is cut off a text that has none. -/
theorem trimStart_eq_self {t : Text} (h : ∀ c ∈ t, isBlank c = false) : t.trimStart = t := by
  cases t with
  | nil => rfl
  | cons c t => rw [trimStart_cons, h c List.mem_cons_self, if_neg Bool.false_ne_true]

theorem trim_eq_self {t : Text} (h : ∀ c ∈ t, isBlank c = false) : t.trim = t := by
  have hreverse : trimStart t.reverse = t.reverse :=
    trimStart_eq_self fun c hc => h c (List.mem_reverse.1 hc)
  rw [trim, trimStart_eq_self h, trimEnd, ← trimStart, hreverse, List.reverse_reverse]

end Text

end RecordFilter
