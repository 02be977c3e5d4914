import RecordFilter.Text.Capital

/-! # Constant names

The name of the constant for a field: capitals and digits are kept, small ASCII letters become
capitals, and every other run of characters becomes one underscore. An underscore also stands where
a capital follows a small letter, be there digits between them or not, and in front of a digit that
would come first. -/

namespace RecordFilter.ConstantName

/-- Write the characters of a name behind `written`, the name so far from its end. The flag tells
whether a small letter, or digits behind one, came last. -/
def write (written : Text) (afterSmall : Bool) : Text → Text
  | [] => written.reverse
  | c :: t =>
    if isCapital c then
      write (c :: if afterSmall then '_' :: written else written) false t
    else if c.isAlphanum then
      write (c.toUpper :: written) (!c.isDigit || afterSmall) t
    else
      write (if written.head? = some '_' then written else '_' :: written) false t

/-- A name that starts with a digit gets an underscore in front. -/
def guardDigit : Text → Text
  | c :: t => if c.isDigit then '_' :: c :: t else c :: t
  | [] => []

/-- The name of the constant for a field name. -/
def ofName (name : Text) : Text := guardDigit (write [] false name)

/-- Whether a constant name has a letter or a digit, that is, anything but underscores. -/
def isProper (constant : Text) : Bool := constant.any (· ≠ '_')

/-- Whether a constant name is an identifier: of the characters that constant names are made of, the
enclosed capitals are those that no identifier has. -/
def isIdentifier (constant : Text) : Bool := constant.all fun c => !isEnclosedCapital c

end RecordFilter.ConstantName
