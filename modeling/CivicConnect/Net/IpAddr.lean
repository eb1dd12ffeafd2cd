import Mathlib.Data.List.Basic

/-!
# IP addresses and their text form

The address type and the text parser of the Rust standard library. Octal
looking parts such as `010` are refused in dotted quads, and `::` stands for
at least one zero group.
-/

namespace CivicConnect.Net

abbrev Segments := {groups : List UInt16 // groups.length = 8}

inductive IpAddr where
  | v4 (a b c d : UInt8)
  | v6 (segments : Segments)
  deriving DecidableEq

def toDigit (radix : ℕ) (c : Char) : Option ℕ :=
  let n := c.toNat
  let value :=
    if '0'.toNat ≤ n ∧ n ≤ '9'.toNat then some (n - '0'.toNat)
    else if 'a'.toNat ≤ n ∧ n ≤ 'f'.toNat then some (n - 'a'.toNat + 10)
    else if 'A'.toNat ≤ n ∧ n ≤ 'F'.toNat then some (n - 'A'.toNat + 10)
    else none
  value.filter (· < radix)

def isDigit (radix : ℕ) (c : Char) : Bool := (toDigit radix c).isSome

def digitsValue (radix : ℕ) (ds : List Char) : ℕ :=
  ds.foldl (fun acc c => acc * radix + (toDigit radix c).getD 0) 0

/-- A number of at most `maxDigits` digits that is at most `limit`. -/
def readNumber (radix maxDigits limit : ℕ) (allowZeroPrefix : Bool) (cs : List Char) :
    Option (ℕ × List Char) :=
  let digits := cs.takeWhile (isDigit radix)
  let rest := cs.dropWhile (isDigit radix)
  if digits.length = 0 ∨ maxDigits < digits.length then none
  else if allowZeroPrefix = false ∧ digits.head? = some '0' ∧ 1 < digits.length then none
  else if digitsValue radix digits ≤ limit then some (digitsValue radix digits, rest)
  else none

def readGivenChar (c : Char) : List Char → Option (List Char)
  | [] => none
  | x :: xs => if x = c then some xs else none

def readSeparator (sep : Char) (index : ℕ) (cs : List Char) : Option (List Char) :=
  if 0 < index then readGivenChar sep cs else some cs

def readOctet (index : ℕ) (cs : List Char) : Option (UInt8 × List Char) := do
  let cs ← readSeparator '.' index cs
  let (n, cs) ← readNumber 10 3 255 false cs
  return (UInt8.ofNat n, cs)

def readIpv4Addr (cs : List Char) : Option ((UInt8 × UInt8 × UInt8 × UInt8) × List Char) := do
  let (a, cs) ← readOctet 0 cs
  let (b, cs) ← readOctet 1 cs
  let (c, cs) ← readOctet 2 cs
  let (d, cs) ← readOctet 3 cs
  return ((a, b, c, d), cs)

def segmentOf (high low : UInt8) : UInt16 := UInt16.ofNat (high.toNat * 256 + low.toNat)

/-- Read up to `remaining` further groups after `index` of them. The flag
tells whether a trailing dotted quad was read, which fills two groups. -/
def readGroups : ℕ → ℕ → List Char → List UInt16 × Bool × List Char
  | 0, _, cs => ([], false, cs)
  | remaining + 1, index, cs =>
      let quad := if 0 < remaining then (readSeparator ':' index cs).bind readIpv4Addr else none
      match quad with
      | some ((a, b, c, d), rest) => ([segmentOf a b, segmentOf c d], true, rest)
      | none =>
          match (readSeparator ':' index cs).bind (readNumber 16 4 65535 true) with
          | some (n, rest) =>
              let (groups, ipv4, rest) := readGroups remaining (index + 1) rest
              (UInt16.ofNat n :: groups, ipv4, rest)
          | none => ([], false, cs)

theorem length_readGroups (remaining index : ℕ) (cs : List Char) :
    (readGroups remaining index cs).1.length ≤ remaining := by
  induction remaining generalizing index cs with
  | zero => exact Nat.le_refl _
  | succ remaining ih =>
      simp only [readGroups]
      split
      · next hquad =>
          have hpos : 0 < remaining := by
            by_contra hzero
            simp [hzero] at hquad
          exact Nat.succ_le_succ hpos
      · split
        · next n rest _ => simpa using ih (index + 1) rest
        · simp

def fillZeros (head tail : List UInt16) (h : head.length + tail.length ≤ 8) : Segments :=
  ⟨head ++ List.replicate (8 - head.length - tail.length) 0 ++ tail, by simp; omega⟩

def readIpv6Addr (cs : List Char) : Option (Segments × List Char) :=
  let head := readGroups 8 0 cs
  if hfull : head.1.length = 8 then some (⟨head.1, hfull⟩, head.2.2)
  else if head.2.1 then none
  else do
    let rest ← readGivenChar ':' head.2.2
    let rest ← readGivenChar ':' rest
    -- `::` stands for at least one zero group, so at most seven others are read.
    let tail := readGroups (8 - (head.1.length + 1)) 0 rest
    have hhead : head.1.length ≤ 8 := length_readGroups 8 0 cs
    have htail : tail.1.length ≤ 8 - (head.1.length + 1) := length_readGroups _ 0 rest
    return (fillZeros head.1 tail.1 (by omega), tail.2.2)

/-- `str::parse::<IpAddr>`: a dotted quad, else an IPv6 text, with nothing
left over. -/
def parseIpAddr (s : String) : Option IpAddr :=
  let address := match readIpv4Addr s.toList with
    | some ((a, b, c, d), rest) => some (IpAddr.v4 a b c d, rest)
    | none => (readIpv6Addr s.toList).map fun (segments, rest) => (IpAddr.v6 segments, rest)
  match address with
  | some (ip, []) => some ip
  | _ => none

example : parseIpAddr "192.0.2.1" = some (.v4 192 0 2 1) := by decide

example : parseIpAddr "2001:db8::192.0.2.1" =
    some (.v6 ⟨[0x2001, 0xdb8, 0, 0, 0, 0, 0xc000, 0x0201], rfl⟩) := by decide

example : parseIpAddr "192.0.02.1" = none := by decide

/-- What was read from the front of a text has the property. -/
def ReadOf (P : List Char → Prop) (cs rest : List Char) : Prop := ∃ p, cs = p ++ rest ∧ P p

/-- A property that what is read has, as it is put together from colons and from
digits, possibly after a dot. -/
structure ReadParts (P : List Char → Prop) : Prop where
  nil : P []
  append : ∀ {p q}, P p → P q → P (p ++ q)
  colon : P [':']
  digits : ∀ {pre ds}, (pre = [] ∨ pre = ['.']) → ds ≠ [] → (∀ c ∈ ds, isDigit 16 c = true) →
    P (pre ++ ds)

theorem isDigit_mono {radix radix' : ℕ} (h : radix ≤ radix') {c : Char}
    (hc : isDigit radix c = true) : isDigit radix' c = true := by
  obtain ⟨x, hx⟩ := Option.isSome_iff_exists.mp hc
  obtain ⟨hvalue, hlt⟩ := Option.filter_eq_some_iff.mp hx
  have hlt' : x < radix' := Nat.lt_of_lt_of_le (of_decide_eq_true hlt) h
  exact Option.isSome_iff_exists.mpr
    ⟨x, Option.filter_eq_some_iff.mpr ⟨hvalue, decide_eq_true hlt'⟩⟩

theorem readGivenChar_eq_some {c : Char} {cs rest : List Char}
    (h : readGivenChar c cs = some rest) : cs = c :: rest := by
  cases cs with
  | nil => cases h
  | cons x xs =>
      rw [readGivenChar] at h
      split at h
      · next heq => rw [heq, Option.some.inj h]
      · cases h

theorem readSeparator_eq_some {sep : Char} {index : ℕ} {cs rest : List Char}
    (h : readSeparator sep index cs = some rest) :
    ∃ pre, cs = pre ++ rest ∧ (pre = [] ∨ pre = [sep]) := by
  rw [readSeparator] at h
  split at h
  · exact ⟨[sep], readGivenChar_eq_some h, .inr rfl⟩
  · exact ⟨[], by simpa using h, .inl rfl⟩

namespace ReadParts

variable {P : List Char → Prop} {cs mid rest : List Char} {index : ℕ}

theorem refl (hP : ReadParts P) (cs : List Char) : ReadOf P cs cs := ⟨[], rfl, hP.nil⟩

theorem trans (hP : ReadParts P) (h : ReadOf P cs mid) (h' : ReadOf P mid rest) :
    ReadOf P cs rest := by
  obtain ⟨p, rfl, hp⟩ := h
  obtain ⟨q, rfl, hq⟩ := h'
  exact ⟨p ++ q, (List.append_assoc p q rest).symm, hP.append hp hq⟩

theorem readNumber {radix maxDigits limit n : ℕ} {zero : Bool} (hP : ReadParts P)
    (hradix : radix ≤ 16) (h : Net.readNumber radix maxDigits limit zero cs = some (n, rest))
    {pre : List Char} (hpre : pre = [] ∨ pre = ['.']) : ReadOf P (pre ++ cs) rest := by
  have hrest : rest = cs.dropWhile (isDigit radix) ∧ cs.takeWhile (isDigit radix) ≠ [] := by
    unfold Net.readNumber at h
    grind
  obtain ⟨rfl, hne⟩ := hrest
  refine ⟨pre ++ cs.takeWhile (isDigit radix), by simp, hP.digits hpre hne ?_⟩
  intro c hc
  exact isDigit_mono hradix (List.all_eq_true.mp (List.all_takeWhile (p := isDigit radix)) c hc)

theorem readOctet {b : UInt8} (hP : ReadParts P) (h : Net.readOctet index cs = some (b, rest)) :
    ReadOf P cs rest := by
  obtain ⟨mid, hsep, hread⟩ := Option.bind_eq_some_iff.mp h
  obtain ⟨⟨n, after⟩, hnumber, hreturn⟩ := Option.bind_eq_some_iff.mp hread
  obtain ⟨_, rfl⟩ : _ ∧ after = rest := by simpa using hreturn
  obtain ⟨pre, rfl, hpre⟩ := readSeparator_eq_some hsep
  exact hP.readNumber (by decide) hnumber hpre

theorem readIpv4Addr {q : UInt8 × UInt8 × UInt8 × UInt8} (hP : ReadParts P)
    (h : Net.readIpv4Addr cs = some (q, rest)) : ReadOf P cs rest := by
  obtain ⟨⟨a, cs₁⟩, ha, h⟩ := Option.bind_eq_some_iff.mp h
  obtain ⟨⟨b, cs₂⟩, hb, h⟩ := Option.bind_eq_some_iff.mp h
  obtain ⟨⟨c, cs₃⟩, hc, h⟩ := Option.bind_eq_some_iff.mp h
  obtain ⟨⟨d, cs₄⟩, hd, h⟩ := Option.bind_eq_some_iff.mp h
  obtain ⟨_, rfl⟩ : _ ∧ cs₄ = rest := by simpa using h
  exact hP.trans (hP.readOctet ha) (hP.trans (hP.readOctet hb)
    (hP.trans (hP.readOctet hc) (hP.readOctet hd)))

theorem readColon (hP : ReadParts P) (h : readSeparator ':' index cs = some rest) :
    ReadOf P cs rest := by
  obtain ⟨pre, rfl, rfl | rfl⟩ := readSeparator_eq_some h
  · exact hP.refl rest
  · exact ⟨[':'], rfl, hP.colon⟩

theorem readGroups (hP : ReadParts P) (remaining index : ℕ) (cs : List Char) :
    ReadOf P cs (Net.readGroups remaining index cs).2.2 := by
  induction remaining generalizing index cs with
  | zero => exact hP.refl cs
  | succ remaining ih =>
      simp only [Net.readGroups]
      split
      · next a b c d rest hquad =>
          split at hquad
          · obtain ⟨mid, hsep, hquad⟩ := Option.bind_eq_some_iff.mp hquad
            exact hP.trans (hP.readColon hsep) (hP.readIpv4Addr hquad)
          · cases hquad
      · split
        · next n rest hgroup =>
            obtain ⟨mid, hsep, hgroup⟩ := Option.bind_eq_some_iff.mp hgroup
            have hnumber := hP.readNumber (by decide) hgroup (.inl rfl)
            exact hP.trans (hP.readColon hsep) (hP.trans hnumber (ih (index + 1) rest))
        · exact hP.refl cs

theorem readIpv6Addr {g : Segments} (hP : ReadParts P)
    (h : Net.readIpv6Addr cs = some (g, rest)) : ReadOf P cs rest := by
  have hhead := hP.readGroups 8 0 cs
  unfold Net.readIpv6Addr at h
  dsimp only at h
  split at h
  · obtain ⟨_, rfl⟩ : _ ∧ _ = rest := by simpa using h
    exact hhead
  · split at h
    · cases h
    · obtain ⟨mid, hfirst, h⟩ := Option.bind_eq_some_iff.mp h
      obtain ⟨mid', hsecond, h⟩ := Option.bind_eq_some_iff.mp h
      obtain ⟨_, rfl⟩ : _ ∧ _ = rest := by simpa using h
      rw [readGivenChar_eq_some hfirst, readGivenChar_eq_some hsecond] at hhead
      have hcolon : ∀ cs, ReadOf P (':' :: cs) cs := fun _ => ⟨[':'], rfl, hP.colon⟩
      exact hP.trans hhead (hP.trans (hcolon _) (hP.trans (hcolon _) (hP.readGroups _ 0 mid')))

/-- An address text has the property as a whole. -/
theorem parseIpAddr {s : String} (hP : ReadParts P) (h : (Net.parseIpAddr s).isSome = true) :
    ReadOf P s.toList [] := by
  unfold Net.parseIpAddr at h
  dsimp only at h
  cases hquad : Net.readIpv4Addr s.toList with
  | some r =>
      obtain ⟨⟨a, b, c, d⟩, rest⟩ := r
      cases rest with
      | nil => exact hP.readIpv4Addr hquad
      | cons c rest => simp [hquad] at h
  | none =>
      cases hgroups : Net.readIpv6Addr s.toList with
      | none => simp [hquad, hgroups] at h
      | some r =>
          obtain ⟨g, rest⟩ := r
          cases rest with
          | nil => exact hP.readIpv6Addr hgroups
          | cons c rest => simp [hquad, hgroups] at h

end ReadParts

/-- What was read from the front of a text does not end in a dot. -/
def ReadTo (cs rest : List Char) : Prop := ∃ p, cs = p ++ rest ∧ p.getLast? ≠ some '.'

theorem isDigit_dot (radix : ℕ) : isDigit radix '.' = false := rfl

theorem readParts_getLast : ReadParts fun p => p.getLast? ≠ some '.' where
  nil := by simp
  append := by
    intro p q hp hq
    rw [List.getLast?_append]
    cases hlast : q.getLast? with
    | none => simpa using hp
    | some c => simpa [hlast] using hq
  colon := by simp
  digits := by
    intro pre ds _ hne hdigits
    rw [List.getLast?_append, List.getLast?_eq_some_getLast hne]
    intro hdot
    have hdigit := hdigits _ (List.getLast_mem hne)
    rw [Option.some.inj hdot, isDigit_dot] at hdigit
    cases hdigit

/-- No address text ends in a dot. -/
theorem parseIpAddr_getLast {s : String} (h : (parseIpAddr s).isSome = true) :
    s.toList.getLast? ≠ some '.' := by
  have hread : ReadTo s.toList [] := readParts_getLast.parseIpAddr h
  obtain ⟨p, hp, hlast⟩ := hread
  rwa [hp, List.append_nil]

/-- The characters that addresses are written with. -/
def isAddressChar (c : Char) : Bool := isDigit 16 c || c = '.' || c = ':'

theorem ascii_of_isAddressChar {c : Char} (h : isAddressChar c = true) : c.toNat < 128 := by
  by_contra hwide
  have hdigit : isDigit 16 c = false := by
    rw [isDigit, toDigit]
    simp only [Char.reduceToNat]
    rw [if_neg (by omega), if_neg (by omega), if_neg (by omega)]
    rfl
  have hmark : c = '.' ∨ c = ':' := by simpa [isAddressChar, hdigit] using h
  rcases hmark with rfl | rfl <;> exact hwide (by decide)

theorem readParts_addressChar : ReadParts fun p => ∀ c ∈ p, isAddressChar c = true where
  nil := by simp
  append hp hq := List.forall_mem_append.mpr ⟨hp, hq⟩
  colon := by
    intro c hc
    rw [List.mem_singleton.mp hc]
    rfl
  digits := by
    intro pre ds hpre _ hdigits c hc
    rcases List.mem_append.mp hc with hc | hc
    · rcases hpre with rfl | rfl
      · cases hc
      · rw [List.mem_singleton.mp hc]
        rfl
    · rw [isAddressChar, hdigits c hc, Bool.true_or, Bool.true_or]

theorem isAddressChar_of_parseIpAddr {s : String} (h : (parseIpAddr s).isSome = true) :
    ∀ c ∈ s.toList, isAddressChar c = true := by
  obtain ⟨p, hp, hchars⟩ := readParts_addressChar.parseIpAddr h
  rwa [hp, List.append_nil]

end CivicConnect.Net
