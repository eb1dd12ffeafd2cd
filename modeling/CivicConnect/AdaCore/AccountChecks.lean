import CivicConnect.AdaCore.Accounts
import CivicConnect.RustApi.Location

/-!
# The checks of the account core

`Create_User` asks for an address, a name and a password with characters of four
kinds. `Update_Location_Hash` asks for fifteen hexadecimal digits; the location
service of the API asks that they also be a cell index. What the service accepts
and what it names as neighbors, the account core takes.
-/

namespace CivicConnect.AdaCore

open Net RustApi

inductive OperationResult where
  | success
  | failure
  | invalidInput
  | notFound
  deriving DecidableEq, Repr

def maxUsernameLength : ℕ := 64

def minPasswordLength : ℕ := 12

/-- The letters of Latin-1, with accented ones. -/
def isUpper (c : Char) : Bool :=
  let n := c.toNat
  (65 ≤ n && n ≤ 90) || (192 ≤ n && n ≤ 214) || (216 ≤ n && n ≤ 222)

def isLower (c : Char) : Bool :=
  let n := c.toNat
  (97 ≤ n && n ≤ 122) || (223 ≤ n && n ≤ 246) || (248 ≤ n && n ≤ 255)

def isDecimalDigit (c : Char) : Bool :=
  let n := c.toNat
  48 ≤ n && n ≤ 57

def isHexadecimalDigit (c : Char) : Bool :=
  let n := c.toNat
  isDecimalDigit c || (65 ≤ n && n ≤ 70) || (97 ≤ n && n ≤ 102)

/-- The variables of the loop over a password. -/
structure PasswordScan where
  hasUpper : Bool
  hasLower : Bool
  hasDigit : Bool
  hasSymbol : Bool
  deriving DecidableEq, Repr

namespace PasswordScan

def initial : PasswordScan := ⟨false, false, false, false⟩

def turn (s : PasswordScan) (c : Char) : PasswordScan :=
  if isUpper c then { s with hasUpper := true }
  else if isLower c then { s with hasLower := true }
  else if isDecimalDigit c then { s with hasDigit := true }
  else { s with hasSymbol := true }

end PasswordScan

namespace AdaString

def validatePassword (password : AdaString) : Bool :=
  if password.length < minPasswordLength then false
  else
    let s := password.chars.foldl PasswordScan.turn .initial
    s.hasUpper && s.hasLower && s.hasDigit && s.hasSymbol

def isValidH3Cell (cell : AdaString) : Bool :=
  if cell.length ≠ 15 then false else cell.chars.all isHexadecimalDigit

end AdaString

/-- What is left out is what follows the checks: the hash and the database. -/
def createUser (email username password : AdaString) : OperationResult :=
  if !email.validateEmail then .invalidInput
  else if username.length = 0 ∨ username.length > maxUsernameLength then .invalidInput
  else if !password.validatePassword then .invalidInput
  else .success

def updateLocationHash (h3Cell : AdaString) : OperationResult :=
  if !h3Cell.isValidH3Cell then .invalidInput else .success

/-- The four kinds of characters. -/
inductive CharKind where
  | upper
  | lower
  | digit
  | symbol
  deriving DecidableEq, Repr

def charKind (c : Char) : CharKind :=
  if isUpper c then .upper
  else if isLower c then .lower
  else if isDecimalDigit c then .digit
  else .symbol

theorem PasswordScan.foldl_turn (s : PasswordScan) (cs : List Char) :
    cs.foldl turn s =
      { hasUpper := s.hasUpper || cs.any fun c => charKind c = .upper
        hasLower := s.hasLower || cs.any fun c => charKind c = .lower
        hasDigit := s.hasDigit || cs.any fun c => charKind c = .digit
        hasSymbol := s.hasSymbol || cs.any fun c => charKind c = .symbol } := by
  induction cs generalizing s with
  | nil => simp
  | cons c cs ih =>
      rw [List.foldl_cons, ih]
      unfold turn
      split_ifs with hupper hlower hdigit <;> simp [charKind, *]

/-- A password is long enough and has characters of each kind. -/
theorem AdaString.validatePassword_iff {password : AdaString} :
    password.validatePassword = true ↔
      minPasswordLength ≤ password.length ∧ ∀ kind, ∃ c ∈ password.chars, charKind c = kind := by
  unfold validatePassword
  split
  · next hshort => simp [Nat.not_le.mpr hshort]
  · next hlong =>
      rw [PasswordScan.foldl_turn]
      simp only [PasswordScan.initial, Bool.false_or, Bool.and_eq_true, List.any_eq_true,
        decide_eq_true_eq]
      constructor
      · rintro ⟨⟨⟨hupper, hlower⟩, hdigit⟩, hsymbol⟩
        refine ⟨Nat.not_lt.mp hlong, fun kind => ?_⟩
        cases kind with
        | upper => exact hupper
        | lower => exact hlower
        | digit => exact hdigit
        | symbol => exact hsymbol
      · rintro ⟨_, hkinds⟩
        exact ⟨⟨⟨hkinds .upper, hkinds .lower⟩, hkinds .digit⟩, hkinds .symbol⟩

/-- Who may register: the characters alone decide, not the index ranges. -/
theorem createUser_success_iff (email username password : AdaString) :
    createUser email username password = .success ↔
      ((1 ≤ email.chars.length ∧ email.chars.length ≤ 254) ∧
        ∃ l d, AdaString.Parts email.chars l d ∧ l ≠ [] ∧ '.' ∈ d ∧ 2 ≤ d.length) ∧
      (1 ≤ username.chars.length ∧ username.chars.length ≤ 64) ∧
      12 ≤ password.chars.length ∧ ∀ kind, ∃ c ∈ password.chars, charKind c = kind := by
  have hemail := @AdaString.validateEmail_iff email
  have hpassword := @AdaString.validatePassword_iff password
  have hname : (1 ≤ username.length ∧ username.length ≤ 64) ↔
      ¬ (username.length = 0 ∨ username.length > maxUsernameLength) := by
    rw [maxUsernameLength]
    omega
  simp only [AdaString.chars_length]
  rw [← maxEmailLength, ← hemail, ← minPasswordLength, ← hpassword, hname, createUser]
  cases email.validateEmail with
  | false => simp
  | true =>
      by_cases hlength : username.length = 0 ∨ username.length > maxUsernameLength
      · simp [hlength]
      · cases password.validatePassword with
        | false => simp [hlength]
        | true => simp [hlength]

theorem isHexadecimalDigit_eq (c : Char) : isHexadecimalDigit c = isDigit 16 c := by
  simp only [isHexadecimalDigit, isDecimalDigit, isDigit, toDigit, show '0'.toNat = 48 from rfl,
    show '9'.toNat = 57 from rfl, show 'a'.toNat = 97 from rfl, show 'f'.toNat = 102 from rfl,
    show 'A'.toNat = 65 from rfl, show 'F'.toNat = 70 from rfl]
  split_ifs with hdigit hlower hupper
  · have hvalue : c.toNat - 48 < 16 := by omega
    simp [Option.filter, hdigit, hvalue]
  · have hvalue : c.toNat - 97 + 10 < 16 := by omega
    simp [Option.filter, hlower, hvalue]
  · have hvalue : c.toNat - 65 + 10 < 16 := by omega
    simp [Option.filter, hupper, hvalue]
  · rw [Option.filter_none, Option.isSome_none, Bool.eq_false_iff]
    simp only [ne_eq, Bool.or_eq_true, Bool.and_eq_true, decide_eq_true_eq]
    omega

theorem updateLocationHash_success_iff {cell : AdaString} :
    updateLocationHash cell = .success ↔
      cell.chars.length = 15 ∧ ∀ c ∈ cell.chars, isDigit 16 c = true := by
  have hcell : cell.isValidH3Cell = true ↔
      cell.chars.length = 15 ∧ ∀ c ∈ cell.chars, isDigit 16 c = true := by
    rw [AdaString.isValidH3Cell, AdaString.chars_length]
    by_cases hlength : cell.length = 15
    · simp [hlength, isHexadecimalDigit_eq]
    · simp [hlength]
  rw [← hcell, updateLocationHash]
  cases cell.isValidH3Cell with
  | false => simp
  | true => simp

/-- A location that the API accepts is one that the account core accepts and
that is a cell index; and the core accepts all that the API names around it. -/
theorem location_accepted_iff (format : IndexFormat) {Cell : Type*} (grid : CellGrid Cell)
    (hparse : ∀ text, (grid.parse text).isSome = (format.fromStr text).isSome)
    (hprint : ∀ cell, (grid.print cell).utf8ByteSize = 15) {text : String} {e : AdaString}
    (htext : e.chars = text.toList) :
    (isValidCell grid.parse text = true ↔ updateLocationHash e = .success ∧
        format.isCell (UInt64.ofNat (digitsValue 16 e.chars)) = true) ∧
      (isValidCell grid.parse text = true → ∀ rings, ∀ name ∈ grid.getNeighbors text rings,
        ∀ e' : AdaString, e'.chars = name.toList → updateLocationHash e' = .success) := by
  have hvalid : ∀ text, isValidCell grid.parse text = isValidCell format.fromStr text := by
    intro text
    rw [isValidCell, isValidCell, hparse]
  have haccepted : ∀ (text : String) (e : AdaString), e.chars = text.toList →
      (isValidCell grid.parse text = true ↔ updateLocationHash e = .success ∧
        format.isCell (UInt64.ofNat (digitsValue 16 e.chars)) = true) := by
    intro text e htext
    rw [hvalid, IndexFormat.isValidCell_iff_digits, updateLocationHash_success_iff, htext]
  refine ⟨haccepted text e htext, ?_⟩
  intro hcell rings name hname e' hname'
  have hnamed : isValidCell grid.parse name = true := by
    rcases CellGrid.mem_getNeighbors hname with rfl | ⟨cell, rfl⟩
    · exact hcell
    · rw [isValidCell, if_neg (not_not_intro (hprint cell)), grid.parse_print]
      rfl
  exact ((haccepted name e' hname').mp hnamed).1

/-- A grid of one cell, read from the texts of the sample indexes. -/
def singleCell : CellGrid Unit where
  parse := fun text => (IndexFormat.sampleFormat.fromStr text).map fun _ => ()
  print := fun _ => "872830828ffffff"
  distance := fun _ _ => 0
  gridDisk := fun _ _ => [()]
  parse_print := fun _ => rfl
  distance_eq_zero := fun _ _ => iff_of_true rfl rfl
  nodup_gridDisk := fun _ _ => List.nodup_singleton ()
  mem_gridDisk := fun _ _ _ => iff_of_true (List.mem_singleton_self ()) zero_le

def sampleCell : AdaString := .literal "872830828FFFFFF".toList (by decide)

theorem sampleCell_chars : sampleCell.chars = "872830828FFFFFF".toList := rfl

theorem location_accepted_iff_sample :
    updateLocationHash sampleCell = .success ∧
      ∀ e : AdaString, e.chars = "872830828ffffff".toList → updateLocationHash e = .success := by
  obtain ⟨hiff, hneighbors⟩ := location_accepted_iff IndexFormat.sampleFormat singleCell
    (fun _ => Option.isSome_map) (fun _ => rfl) sampleCell_chars
  have hvalid : isValidCell singleCell.parse "872830828FFFFFF" = true := by decide
  exact ⟨(hiff.mp hvalid).1, hneighbors hvalid 1 "872830828ffffff" (by decide)⟩

end CivicConnect.AdaCore
