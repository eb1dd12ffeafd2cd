import CivicConnect.Net.IpAddr

/-!
# Letter case in address texts

Hexadecimal digits are read in either case and no other letter is read at all,
so that a text and its lower case are read as the same address.
-/

namespace CivicConnect.Net

variable {c d : Char} {cs : List Char} {radix index : ℕ}

def IsUpper (c : Char) : Prop := 65 ≤ c.toNat ∧ c.toNat ≤ 90

theorem toLower_of_not_upper (h : ¬ IsUpper c) : c.toLower = c := dif_neg h

theorem toNat_toLower_of_upper (h : IsUpper c) : c.toLower.toNat = c.toNat + 32 := by
  have hlt : c.toNat + 32 < 2 ^ 32 := by
    have hle := h.2
    omega
  have hlower : c.toLower.toNat = (c.val + ('a'.val - 'A'.val)).toNat :=
    congrArg Char.toNat (dif_pos h)
  rw [hlower]
  exact Nat.mod_eq_of_lt hlt

theorem toLower_toLower (c : Char) : c.toLower.toLower = c.toLower := by
  by_cases hupper : IsUpper c
  · apply toLower_of_not_upper
    rintro ⟨_, hhigh⟩
    rw [toNat_toLower_of_upper hupper] at hhigh
    have hlow := hupper.1
    omega
  · rw [toLower_of_not_upper hupper, toLower_of_not_upper hupper]

/-- Only an ASCII character has an ASCII character as its lower case. -/
theorem toLower_ascii_iff : c.toLower.toNat < 128 ↔ c.toNat < 128 := by
  by_cases hupper : IsUpper c
  · rw [toNat_toLower_of_upper hupper]
    have hhigh := hupper.2
    omega
  · rw [toLower_of_not_upper hupper]

theorem toDigit_toLower (radix : ℕ) (c : Char) : toDigit radix c.toLower = toDigit radix c := by
  by_cases hupper : IsUpper c
  · obtain ⟨hlow, hhigh⟩ := id hupper
    rw [toDigit, toDigit, toNat_toLower_of_upper hupper]
    congr 1
    simp only [Char.reduceToNat]
    split_ifs <;> grind
  · rw [toLower_of_not_upper hupper]

theorem isDigit_toLower (radix : ℕ) : isDigit radix ∘ Char.toLower = isDigit radix := by
  funext c
  rw [Function.comp_apply, isDigit, toDigit_toLower, isDigit]

/-- Lowering neither makes nor removes a character below the letters. -/
theorem toLower_eq_iff (hd : d.toNat < 65) : c.toLower = d ↔ c = d := by
  by_cases hupper : IsUpper c
  · have hlower := toNat_toLower_of_upper hupper
    have hlow := hupper.1
    constructor
    · rintro rfl
      omega
    · rintro rfl
      omega
  · rw [toLower_of_not_upper hupper]

theorem digitsValue_map_toLower (radix : ℕ) (ds : List Char) :
    digitsValue radix (ds.map Char.toLower) = digitsValue radix ds := by
  rw [digitsValue, List.foldl_map, digitsValue]
  simp only [toDigit_toLower]

/-- What was read, with the rest in lower case. -/
def lowerRest {α : Type} (r : α × List Char) : α × List Char := (r.1, r.2.map Char.toLower)

theorem readNumber_map_toLower (radix maxDigits limit : ℕ) (zero : Bool) (cs : List Char) :
    readNumber radix maxDigits limit zero (cs.map Char.toLower) =
      (readNumber radix maxDigits limit zero cs).map lowerRest := by
  have hhead : ((cs.takeWhile (isDigit radix)).map Char.toLower).head? = some '0' ↔
      (cs.takeWhile (isDigit radix)).head? = some '0' := by
    rw [List.head?_map, Option.map_eq_some_iff]
    simp [toLower_eq_iff]
  unfold readNumber
  simp only [List.takeWhile_map, List.dropWhile_map, isDigit_toLower, List.length_map, hhead,
    digitsValue_map_toLower]
  split_ifs <;> rfl

theorem readGivenChar_map_toLower (hd : d.toNat < 65) (cs : List Char) :
    readGivenChar d (cs.map Char.toLower) = (readGivenChar d cs).map (List.map Char.toLower) := by
  cases cs with
  | nil => rfl
  | cons x xs =>
      rw [List.map_cons, readGivenChar, readGivenChar]
      simp only [toLower_eq_iff hd]
      split <;> rfl

theorem readSeparator_map_toLower (hd : d.toNat < 65) (index : ℕ) (cs : List Char) :
    readSeparator d index (cs.map Char.toLower) =
      (readSeparator d index cs).map (List.map Char.toLower) := by
  rw [readSeparator, readSeparator]
  split
  · exact readGivenChar_map_toLower hd cs
  · rfl

theorem readSeparator_bind_map_toLower {α : Type} {read : List Char → Option (α × List Char)}
    (hread : ∀ cs, read (cs.map Char.toLower) = (read cs).map lowerRest) (hd : d.toNat < 65)
    (index : ℕ) (cs : List Char) :
    (readSeparator d index (cs.map Char.toLower)).bind read =
      ((readSeparator d index cs).bind read).map lowerRest := by
  rw [readSeparator_map_toLower hd, Option.bind_map, Option.map_bind]
  exact congrArg _ (funext hread)

theorem readOctet_map_toLower (index : ℕ) (cs : List Char) :
    readOctet index (cs.map Char.toLower) = (readOctet index cs).map lowerRest := by
  rw [readOctet, readOctet, readSeparator_map_toLower (by decide)]
  cases readSeparator '.' index cs with
  | none => rfl
  | some rest =>
      simp only [Option.map_some, bind, Option.bind_some, readNumber_map_toLower]
      cases readNumber 10 3 255 false rest <;> rfl

theorem readIpv4Addr_map_toLower (cs : List Char) :
    readIpv4Addr (cs.map Char.toLower) = (readIpv4Addr cs).map lowerRest := by
  have hnext : ∀ {β : Type} (index : ℕ) (cs : List Char) (g : UInt8 × List Char → Option β),
      (readOctet index (cs.map Char.toLower)).bind g =
        (readOctet index cs).bind fun r => g (lowerRest r) := by
    intro β index cs g
    rw [readOctet_map_toLower, Option.bind_map]
    rfl
  simp only [readIpv4Addr, bind, hnext, lowerRest, Option.map_bind, Function.comp_def]
  rfl

theorem readGroups_map_toLower (remaining index : ℕ) (cs : List Char) :
    readGroups remaining index (cs.map Char.toLower) =
      ((readGroups remaining index cs).1, lowerRest (readGroups remaining index cs).2) := by
  induction remaining generalizing index cs with
  | zero => rfl
  | succ remaining ih =>
      have hquad := readSeparator_bind_map_toLower readIpv4Addr_map_toLower
        (d := ':') (by decide) index cs
      have hgroup := readSeparator_bind_map_toLower (readNumber_map_toLower 16 4 65535 true)
        (d := ':') (by decide) index cs
      have hguard : ∀ quad : Option ((UInt8 × UInt8 × UInt8 × UInt8) × List Char),
          (if 0 < remaining then quad.map lowerRest else none) =
            (if 0 < remaining then quad else none).map lowerRest := by
        intro quad
        split <;> rfl
      simp only [readGroups, hquad, hgroup, hguard]
      cases if 0 < remaining then (readSeparator ':' index cs).bind readIpv4Addr else none with
      | some quad => rfl
      | none =>
          cases (readSeparator ':' index cs).bind (readNumber 16 4 65535 true) with
          | none => rfl
          | some group => simp only [Option.map_none, Option.map_some, lowerRest, ih]

theorem readIpv6Addr_map_toLower (cs : List Char) :
    readIpv6Addr (cs.map Char.toLower) = (readIpv6Addr cs).map lowerRest := by
  have hnext : ∀ {β : Type} (cs : List Char) (g : List Char → Option β),
      (readGivenChar ':' (cs.map Char.toLower)).bind g =
        (readGivenChar ':' cs).bind fun rest => g (rest.map Char.toLower) := by
    intro β cs g
    rw [readGivenChar_map_toLower (by decide), Option.bind_map]
    rfl
  unfold readIpv6Addr
  simp only [readGroups_map_toLower, lowerRest]
  split
  · rfl
  · split
    · rfl
    · simp only [bind, hnext, readGroups_map_toLower, lowerRest, Option.map_bind,
        Function.comp_def]
      rfl

/-- An address is read from the lower case of its text. -/
theorem parseIpAddr_map_toLower (s : String) :
    parseIpAddr (String.ofList (s.toList.map Char.toLower)) = parseIpAddr s := by
  unfold parseIpAddr
  rw [String.toList_ofList, readIpv4Addr_map_toLower, readIpv6Addr_map_toLower]
  cases readIpv4Addr s.toList with
  | some quad =>
      obtain ⟨⟨a, b, c, d⟩, rest⟩ := quad
      cases rest <;> rfl
  | none =>
      cases readIpv6Addr s.toList with
      | none => rfl
      | some segments =>
          obtain ⟨segments, rest⟩ := segments
          cases rest <;> rfl

end CivicConnect.Net
