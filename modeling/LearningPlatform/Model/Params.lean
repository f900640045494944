import LearningPlatform.Model.Database

/-! # Request parameters, texts and validation messages -/

namespace LearningPlatform

/-! ## Texts -/

/-- `[[:space:]]`. -/
def space? (c : Char) : Bool :=
  (0x9 ≤ c.toNat && c.toNat ≤ 0xD) || (0x2000 ≤ c.toNat && c.toNat ≤ 0x200A) ||
    [0x20, 0x85, 0xA0, 0x1680, 0x2028, 0x2029, 0x202F, 0x205F, 0x3000].contains c.toNat

/-- `String#blank?`. -/
def blank? (text : String) : Bool :=
  text.toList.all space?

/-- The characters that `String#strip` removes at both ends. -/
def stripped? (c : Char) : Bool :=
  (0x9 ≤ c.toNat && c.toNat ≤ 0xD) || c.toNat == 0x20 || c.toNat == 0

def strip (text : String) : String :=
  String.ofList ((text.toList.dropWhile stripped?).reverse.dropWhile stripped?).reverse

/-- `presence`, where `nil` is blank. -/
def presence (text : Option String) : Option String :=
  text.filter fun text => !blank? text

/-! ## JSON scalars -/

/-- A scalar of a JSON request body; an absent key reads as `null`. -/
inductive Param where
  | null
  | bool (b : Bool)
  | int (n : ℤ)
  | str (s : String)
  deriving DecidableEq, Repr

def Param.toText : Param → String
  | .null => ""
  | .bool b => if b then "true" else "false"
  | .int n => toString n
  | .str s => s

/-! ## Validation messages -/

/-- `validates presence: true` on a text column. -/
def presenceErrors (label : String) (text : Option String) : List String :=
  if (presence text).isNone then [label ++ " can't be blank"] else []

/-- `validates presence: true, numericality: { only_integer: true,
greater_than_or_equal_to: 0 }`. -/
def countErrors (label : String) : Option ℤ → List String
  | none => [label ++ " can't be blank", label ++ " is not a number"]
  | some n => if n < 0 then [label ++ " must be greater than or equal to 0"] else []

/-- `validates length: { maximum: }`. -/
def lengthErrors (label : String) (maximum : ℕ) (text : Option String) : List String :=
  match text with
  | none => []
  | some text =>
    if maximum < text.length then
      [label ++ " is too long (maximum is " ++ toString maximum ++ " characters)"]
    else []

def staffErrors (label : String) (user : User) : List String :=
  if user.staff? then [] else [label ++ " must be staff"]

/-- `find`. -/
def orNotFound {α : Type*} (record : Option α) : Except Failure α :=
  match record with
  | none => .error .recordNotFound
  | some record => .ok record

/-- `save!`: the record is written if no validation added an error. -/
def saveUnless {ρ : Type*} (errors : List String) (record : ρ) : Except Failure ρ :=
  match errors with
  | [] => .ok record
  | errors => .error (.recordInvalid errors)

/-- `create!` of a record that a unique index covers; `taken` says that a row with the
indexed columns exists. -/
def saveUnique {ρ : Type*} (errors : List String) (index : String) (taken : Bool) (record : ρ) :
    Except Failure ρ :=
  match saveUnless errors record with
  | .error failure => .error failure
  | .ok record => if taken then .error (.recordNotUnique index) else .ok record

end LearningPlatform
