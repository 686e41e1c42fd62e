import ForexCopy.Library.JsonRead
import ForexCopy.Wire.JsonReader

/-!
# The slave reads what the backend wrote

A quoted key with its colon occurs in a flat object only where the key stands: at any other quote
something else follows, be it another key, a value, or what separates the members. So the search finds
the member, the scan stops at the end of its value, and a key that is not there is not found.
-/

namespace ForexCopy

open Utf16 Mql Json

/-! ### Scanning -/

/-- The loop stops where what holds for a front no longer holds. -/
theorem scan_of_drop {goesOn : UInt16 → Bool} {text front rest : Text} {pos : ℕ}
    (hdrop : text.drop pos = front ++ rest) (hfront : ∀ u ∈ front, goesOn u)
    (hrest : ∀ u ∈ rest.head?, goesOn u = false) {n : ℕ} (hn : front.length ≤ n) :
    scan goesOn text n pos = pos + front.length := by
  induction front generalizing n pos with
  | nil =>
      have hget : text[pos]? = rest.head? := by
        rw [← List.head?_drop, hdrop, List.nil_append]
      cases n with
      | zero => rfl
      | succ n =>
          rw [scan, hget]
          cases hhead : rest.head? with
          | none => rfl
          | some u => simp [hrest u hhead]
  | cons u front ih =>
      obtain ⟨n, rfl⟩ : ∃ k, n = k + 1 := ⟨n - 1, by simp at hn; omega⟩
      have hget : text[pos]? = some u := by
        rw [← List.head?_drop, hdrop]
        rfl
      have hnext : text.drop (pos + 1) = front ++ rest := by
        rw [← List.tail_drop, hdrop]
        rfl
      rw [scan, hget]
      simp only [hfront u List.mem_cons_self, if_true]
      rw [ih hnext (fun v hv => hfront v (List.mem_cons_of_mem _ hv)) (by simpa using hn),
        List.length_cons]
      omega

/-- What does not go on is not passed over. -/
theorem scan_start {goesOn : UInt16 → Bool} {text rest : Text} {pos n : ℕ} {u : UInt16}
    (hdrop : text.drop pos = u :: rest) (hu : goesOn u = false) : scan goesOn text n pos = pos := by
  have hstops : ∀ v ∈ (u :: rest).head?, goesOn v = false := by simpa using hu
  have hnone : ∀ v ∈ ([] : Text), goesOn v := List.forall_mem_nil _
  exact scan_of_drop hdrop hnone hstops (Nat.zero_le n)

/-! ### Values -/

/-- A string without quotes in it, which is not empty, or a literal without any delimiter. -/
inductive FlatValue : Text → Prop
  | string {value : Text} (hne : value ≠ []) (hquote : quote ∉ value) :
      FlatValue ([quote] ++ value ++ [quote])
  | literal {raw : Text} (hne : raw ≠ []) (hspace : space ∉ raw) (hquote : quote ∉ raw)
      (hcomma : comma ∉ raw) (hbrace : closeBrace ∉ raw) : FlatValue raw

/-- What stands behind a value. -/
def Closes (rest : Text) : Prop := ∃ u ∈ rest.head?, u = comma ∨ u = closeBrace

theorem stringSubstr_of_drop {text front rest : Text} {pos : ℕ}
    (hdrop : text.drop pos = front ++ rest) (hne : front ≠ []) :
    stringSubstr text pos front.length = front := by
  have hpos : ¬(front.length : ℤ) ≤ 0 := by
    have := List.length_pos_of_ne_nil hne
    omega
  unfold stringSubstr
  rw [if_neg hpos, hdrop, Int.toNat_natCast, List.take_left]

theorem drop_cons_eq {text rest : Text} {pos : ℕ} {u : UInt16} (h : text.drop pos = u :: rest) :
    text[pos]? = some u ∧ text.drop (pos + 1) = rest := by
  rw [← List.head?_drop, ← List.tail_drop, h]
  exact ⟨rfl, rfl⟩

theorem length_front_le {text front rest : Text} {pos : ℕ} (hdrop : text.drop pos = front ++ rest) :
    front.length ≤ text.length := by
  have hlength := congrArg List.length hdrop
  rw [List.length_drop, List.length_append] at hlength
  omega

/-- The value behind the key is cut out. -/
theorem findRawValue_of_drop {reader : JsonReader} {key raw rest : Text} {pos : ℕ}
    (hfind : stringFind reader.body ([quote] ++ key ++ [quote, colon]) = some pos)
    (hdrop : reader.body.drop (pos + ([quote] ++ key ++ [quote, colon]).length) = raw ++ rest)
    (hraw : FlatValue raw) (hrest : Closes rest) : reader.findRawValue key = some raw := by
  unfold JsonReader.findRawValue
  simp only [hfind]
  generalize pos + ([quote] ++ key ++ [quote, colon]).length = start at hdrop ⊢
  cases hraw with
  | @string value hne hquote =>
      have hbody : reader.body.drop start = quote :: (value ++ quote :: rest) := by simp [hdrop]
      obtain ⟨hget, hnext⟩ := drop_cons_eq hbody
      have hstart : scan (· = space) reader.body reader.body.length start = start :=
        scan_start hbody (by decide)
      have hend : scan (· ≠ quote) reader.body reader.body.length (start + 1) =
          start + 1 + value.length :=
        scan_of_drop hnext (fun u hu => by simpa using ne_of_mem_of_not_mem hu hquote) (by simp)
          (length_front_le hnext)
      have hlength : ((start + 1 + value.length : ℕ) : ℤ) - start + 1 =
          ([quote] ++ value ++ [quote]).length := by
        simp
        omega
      rw [hstart, hget]
      dsimp only
      rw [if_pos rfl, hend, hlength, stringSubstr_of_drop hdrop (by simp)]
  | literal hne hspace hquote hcomma hbrace =>
      obtain ⟨u, others, rfl⟩ := List.exists_cons_of_ne_nil hne
      obtain ⟨hget, -⟩ := drop_cons_eq hdrop
      have hspace : u ≠ space := fun h => hspace (h ▸ List.mem_cons_self)
      have hquote : u ≠ quote := fun h => hquote (h ▸ List.mem_cons_self)
      have hstart : scan (· = space) reader.body reader.body.length start = start :=
        scan_start hdrop (by simpa using hspace)
      have hgoesOn : ∀ v ∈ u :: others, decide (v ≠ comma ∧ v ≠ closeBrace) = true := fun v hv => by
        simpa using ⟨ne_of_mem_of_not_mem hv hcomma, ne_of_mem_of_not_mem hv hbrace⟩
      have hstops : ∀ v ∈ rest.head?, decide (v ≠ comma ∧ v ≠ closeBrace) = false := by
        obtain ⟨v, hv, hclose⟩ := hrest
        intro v' hv'
        obtain rfl := Option.some.inj (hv.symm.trans hv')
        rcases hclose with rfl | rfl <;> decide
      have hend : scan (fun c => c ≠ comma ∧ c ≠ closeBrace) reader.body reader.body.length start =
          start + (u :: others).length :=
        scan_of_drop hdrop hgoesOn hstops (length_front_le hdrop)
      have hlength : ((start + (u :: others).length : ℕ) : ℤ) - start = (u :: others).length := by
        omega
      rw [hstart, hget]
      dsimp only
      rw [if_neg hquote, hend, hlength, stringSubstr_of_drop hdrop (by simp)]

/-! ### Finding the member -/

/-- The members of an object with what separates them in front of each, and the end of the object. -/
def chain : UInt16 → List (Text × Text) → Text
  | _, [] => [closeBrace]
  | separator, property :: properties =>
    separator :: (memberText property.1 property.2 ++ chain comma properties)

theorem closes_chain (properties : List (Text × Text)) : Closes (chain comma properties) := by
  cases properties with
  | nil => exact ⟨closeBrace, rfl, .inr rfl⟩
  | cons property properties => exact ⟨comma, rfl, .inl rfl⟩

theorem Closes.head?_ne {rest : Text} (h : Closes rest) : rest.head? ≠ some colon := by
  obtain ⟨u, hu, hclose⟩ := h
  rw [Option.mem_def.mp hu]
  rcases hclose with rfl | rfl <;> decide

section

variable {key : Text}

theorem quote_notMem (hkey : IsIdentifier key) : quote ∉ key := fun h =>
  absurd (hkey.2 _ h) (by decide)

/-- A name does not begin with what separates members or stands behind a key. -/
theorem head?_ne_of_identifier (hkey : IsIdentifier key) {rest : Text}
    (hrest : rest.head? = some colon ∨ Closes rest) : key.head? ≠ rest.head? := by
  intro h
  have hunit : ∀ u, rest.head? = some u → u = colon ∨ u = comma ∨ u = closeBrace → False := by
    intro u hu hoff
    have hmem := hkey.2 u (List.mem_of_head? (h.trans hu))
    rcases hoff with rfl | rfl | rfl <;> exact absurd hmem (by decide)
  rcases hrest with hcolon | ⟨u, hu, hclose⟩
  · exact hunit colon hcolon (.inl rfl)
  · exact hunit u hu (.inr hclose)

/-- No occurrence of the quoted key begins in a value. -/
theorem skips_value (hkey : IsIdentifier key) {raw rest : Text} (hraw : FlatValue raw)
    (hrest : Closes rest) : Search.Skips (Search.quoted quote colon key) raw rest := by
  cases hraw with
  | literal _ _ hquote => exact Search.skips_of_notMem hquote
  | @string value hne hquote =>
      rw [Search.skips_append, Search.skips_append]
      refine ⟨⟨⟨?_, trivial⟩, Search.skips_of_notMem hquote⟩, ⟨?_, trivial⟩⟩
      · intro hprefix
        have h : key = value ∧ rest.head? = some colon :=
          (Search.quoted_prefix_iff (quote_notMem hkey) hquote).mp (by simpa using hprefix)
        exact hrest.head?_ne h.2
      · exact Search.not_quoted_prefix (head?_ne_of_identifier hkey (.inr hrest)) hkey.1

/-- No occurrence of the quoted key begins in the member of another key. -/
theorem skips_member (hkey : IsIdentifier key) {separator : UInt16} (hseparator : separator ≠ quote)
    {property : Text × Text} (hproperty : IsIdentifier property.1) (hne : key ≠ property.1)
    (hraw : FlatValue property.2) {rest : Text} (hrest : Closes rest) :
    Search.Skips (Search.quoted quote colon key)
      (separator :: memberText property.1 property.2) rest := by
  obtain ⟨name, raw⟩ := property
  have hshape : separator :: memberText name raw =
      [separator] ++ ([quote] ++ (name ++ ([quote] ++ ([colon] ++ raw)))) := by simp [memberText]
  rw [hshape]
  simp only [Search.skips_append]
  refine ⟨Search.skips_of_notMem (by simpa using hseparator.symm), ⟨?_, trivial⟩,
    Search.skips_of_notMem (quote_notMem hproperty), ⟨?_, trivial⟩,
    Search.skips_of_notMem (by decide), skips_value hkey hraw hrest⟩
  · intro hprefix
    have h : key = name ∧ ([colon] ++ raw ++ rest).head? = some colon :=
      (Search.quoted_prefix_iff (quote_notMem hkey) (quote_notMem hproperty)).mp
        (by simpa using hprefix)
    exact hne h.1
  · exact Search.not_quoted_prefix (head?_ne_of_identifier hkey (.inl rfl)) hkey.1

/-- Members with names for keys, and flat values. -/
def Flat (properties : List (Text × Text)) : Prop :=
  ∀ property ∈ properties, IsIdentifier property.1 ∧ FlatValue property.2

/-- The first occurrence is that of the member. -/
theorem find_member (hkey : IsIdentifier key) {separator : UInt16} (hseparator : separator ≠ quote)
    {properties : List (Text × Text)} (hflat : Flat properties) {property : Text × Text}
    (hlookup : Table.lookup Prod.fst key properties = some property) :
    ∃ pos rest, stringFind (chain separator properties) (Search.quoted quote colon key) = some pos ∧
      (chain separator properties).drop (pos + (Search.quoted quote colon key).length) =
        property.2 ++ rest ∧ Closes rest := by
  induction properties generalizing separator with
  | nil => cases hlookup
  | cons first properties ih =>
      obtain ⟨⟨hfirst, hraw⟩, hflat⟩ := List.forall_mem_cons.mp hflat
      have hrest := closes_chain properties
      rw [chain]
      by_cases heq : first.1 = key
      · -- It is the first member, behind its separator.
        have hproperty : first = property := by simpa [Table.lookup, heq] using hlookup
        subst hproperty heq
        have hshape : separator :: (memberText first.1 first.2 ++ chain comma properties) =
            [separator] ++ (Search.quoted quote colon first.1 ++
              (first.2 ++ chain comma properties)) := by
          simp [memberText, Search.quoted]
        have hskips : Search.Skips (Search.quoted quote colon first.1) [separator]
            (Search.quoted quote colon first.1 ++ (first.2 ++ chain comma properties)) :=
          Search.skips_of_notMem (by simpa using hseparator.symm)
        refine ⟨1, chain comma properties, ?_, ?_, hrest⟩
        · rw [hshape, stringFind, Search.find_append hskips,
            Search.find_of_prefix (List.prefix_append _ _)]
          rfl
        · rw [hshape, ← List.drop_drop]
          simp
      · have hlookup : Table.lookup Prod.fst key properties = some property := by
          simpa [Table.lookup, heq] using hlookup
        obtain ⟨pos, rest, hfind, hdrop, hclosed⟩ := ih (show comma ≠ quote by decide) hflat hlookup
        have hskips := skips_member hkey hseparator hfirst (Ne.symm heq) hraw hrest
        refine ⟨(separator :: memberText first.1 first.2).length + pos, rest, ?_, ?_, hclosed⟩
        · rw [← List.cons_append, stringFind, Search.find_append hskips]
          rw [stringFind] at hfind
          rw [hfind]
          rfl
        · rw [← List.cons_append, Nat.add_assoc, ← List.drop_drop, List.drop_left]
          exact hdrop

theorem skips_chain (hkey : IsIdentifier key) {separator : UInt16} (hseparator : separator ≠ quote)
    {properties : List (Text × Text)} (hflat : Flat properties)
    (hlookup : Table.lookup Prod.fst key properties = none) :
    Search.Skips (Search.quoted quote colon key) (chain separator properties) [] := by
  induction properties generalizing separator with
  | nil => exact Search.skips_of_notMem (by simp only [chain]; decide)
  | cons first properties ih =>
      obtain ⟨⟨hfirst, hraw⟩, hflat⟩ := List.forall_mem_cons.mp hflat
      obtain ⟨hne, hlookup⟩ : first.1 ≠ key ∧ Table.lookup Prod.fst key properties = none := by
        simpa [Table.lookup] using hlookup
      rw [chain, ← List.cons_append, Search.skips_append, List.append_nil]
      exact ⟨skips_member hkey hseparator hfirst hne.symm hraw (closes_chain properties),
        ih (by decide) hflat hlookup⟩

/-- The reader finds the values of an object of flat members, and no others. -/
theorem findRawValue_chain (hkey : IsIdentifier key) {properties : List (Text × Text)}
    (hflat : Flat properties) :
    (JsonReader.init (chain openBrace properties)).findRawValue key =
      (Table.lookup Prod.fst key properties).map Prod.snd := by
  have hneedle : [quote] ++ key ++ [quote, colon] = Search.quoted quote colon key := by
    simp [Search.quoted]
  cases hlookup : Table.lookup Prod.fst key properties with
  | none =>
      have hfind : stringFind (chain openBrace properties) ([quote] ++ key ++ [quote, colon]) =
          none := by
        rw [hneedle]
        exact Search.find_of_skips (by simp [Search.quoted])
          (skips_chain hkey (by decide) hflat hlookup)
      simp only [JsonReader.findRawValue, JsonReader.init, hfind, Option.map_none]
  | some property =>
      obtain ⟨pos, rest, hfind, hdrop, hrest⟩ :=
        find_member hkey (show openBrace ≠ quote by decide) hflat hlookup
      rw [← hneedle] at hfind hdrop
      exact findRawValue_of_drop hfind hdrop (hflat _ (Table.lookup_mem hlookup)).2 hrest

end

/-! ### The instruction -/

theorem chain_eq {properties : List (Text × Text)} (hne : properties ≠ []) :
    [openBrace] ++ joined (properties.map fun property => memberText property.1 property.2) ++
      [closeBrace] = chain openBrace properties := by
  have htail (others : List (Text × Text)) : (others.flatMap fun property =>
      comma :: memberText property.1 property.2) ++ [closeBrace] = chain comma others := by
    induction others with
    | nil => rfl
    | cons property others ih =>
        rw [List.flatMap_cons, List.append_assoc, ih]
        rfl
  obtain ⟨property, others, rfl⟩ := List.exists_cons_of_ne_nil hne
  rw [List.map_cons, joined_map_cons, List.flatMap_map, List.append_assoc, List.append_assoc, htail]
  rfl

/-- A string in the shape that the reader's header documents. -/
def Documented (s : String) : Prop :=
  s ≠ "" ∧ ∀ c ∈ s.toList, c ≠ '"' ∧ c ≠ '\\' ∧ ¬c.toNat < 0x20

instance (s : String) : Decidable (Documented s) :=
  @instDecidableAnd _ _ inferInstance (List.decidableBAll _ s.toList)

theorem stringifyString_eq {s : String} (h : Documented s) :
    stringifyString s = [quote] ++ ofString s ++ [quote] := by
  unfold stringifyString ofString
  have hescape : s.toList.flatMap escapeChar = s.toList.flatMap ofChar := by
    refine List.flatMap_congr fun c hc => ?_
    obtain ⟨hquote, hbackslash, hcontrol⟩ := h.2 c hc
    have hne {d : Char} (hd : d.toNat < 0x20) : c ≠ d := by
      rintro rfl
      exact hcontrol hd
    unfold escapeChar
    rw [if_neg hquote, if_neg hbackslash, if_neg (hne (by decide)), if_neg (hne (by decide)),
      if_neg (hne (by decide)), if_neg (hne (by decide)), if_neg (hne (by decide)), if_neg hcontrol]
  rw [hescape]

theorem flatValue_string {s : String} (h : Documented s) : FlatValue (stringifyString s) := by
  rw [stringifyString_eq h]
  refine .string (by simpa using h.1) ?_
  exact notMem_ofString (c := '"') (by decide) fun hmem => (h.2 _ hmem).1 rfl

theorem flatValue_numeral (numeral : Numeral) : FlatValue numeral.text := by
  have hoff {u : UInt16} (hu : IsNumeric u = false) : u ∉ numeral.text := fun hmem => by
    simpa [hu] using isNumeric_of_mem_text hmem
  exact .literal (by simp [Numeral.text, numeral.whole_ne_nil]) (hoff (by decide)) (hoff (by decide))
    (hoff (by decide)) (hoff (by decide))

/-- Plain decimals are read as the numbers that they are. -/
theorem plainNumber_text {numeral : Numeral} (h : numeral.exponent = none) :
    plainNumber numeral.text = numeral.mantissa := by
  obtain ⟨negative, whole, fraction, exponent, hwhole, hunpadded, hexponent⟩ := numeral
  obtain rfl : exponent = none := h
  have hrest : Digits.NoDigit (Numeral.fractionText fraction) := by
    have hnil : Digits.NoDigit [] := by simp [Digits.NoDigit]
    simpa using noDigit_fractionText fraction hnil
  have hfraction : (if (Numeral.fractionText fraction).head? = some point then
      (Numeral.fractionText fraction).tail.takeWhile IsDigit else []) = Digits.text fraction := by
    unfold Numeral.fractionText
    split_ifs with hnil hhead hhead
    · cases hhead
    · rw [hnil]
      rfl
    · exact List.takeWhile_eq_self_iff.mpr fun u hu => Digits.isDigit_of_mem_text hu
    · exact absurd rfl hhead
  have hhead : (Digits.text whole ++ Numeral.fractionText fraction).head? ≠ some minus := by
    obtain ⟨d, others, rfl⟩ := List.exists_cons_of_ne_nil hwhole
    intro hd
    have hdigit := Digits.isDigit_unit d
    rw [Option.some.inj (show some (Digits.unit d) = some minus from hd)] at hdigit
    exact absurd hdigit (by decide)
  have htake : (Digits.text whole ++ Numeral.fractionText fraction).takeWhile IsDigit =
      Digits.text whole := Digits.takeWhile_text hrest
  have hdrop : (Digits.text whole ++ Numeral.fractionText fraction).dropWhile IsDigit =
      Numeral.fractionText fraction := Digits.dropWhile_text hrest
  have hlength : (Digits.text fraction).length = fraction.length := List.length_map _
  unfold plainNumber Numeral.text Numeral.mantissa Numeral.exponentText
  rw [List.append_nil, List.append_assoc]
  cases negative with
  | true =>
      simp only [Numeral.signText, if_true, List.singleton_append, List.head?_cons, List.tail_cons,
        htake, hdrop, hfraction, Digits.map_ofUnit_text, hlength, decide_true]
  | false =>
      simp only [Numeral.signText, Bool.false_eq_true, if_false, List.nil_append, hhead, htake, hdrop,
        hfraction, Digits.map_ofUnit_text, hlength, decide_false]

theorem plainNumber_integerToString (value : ℤ) : plainNumber (integerToString value) = value := by
  rw [integerToString, plainNumber_text rfl, Numeral.mantissa_ofInt]

namespace JsonReader

/-- `GetString` and `GetDouble` by the value that is found. -/
theorem getString_of_found {reader : JsonReader} {key : Text} {s : String} (h : Documented s)
    (hfound : reader.findRawValue key = some (stringifyString s)) (defaultValue : Text) :
    reader.getString key defaultValue = ofString s := by
  have hraw := stringifyString_eq h
  have hlength : ((stringifyString s).length : ℤ) - 2 = (ofString s).length := by
    rw [hraw]
    simp
    omega
  have hdrop : (stringifyString s).drop 1 = ofString s ++ [quote] := by
    rw [hraw]
    rfl
  have hquoted : (stringifyString s).length ≥ 2 ∧ (stringifyString s).head? = some quote := by
    rw [hraw]
    simp
  unfold getString
  rw [hfound]
  dsimp only
  rw [if_pos hquoted, hlength]
  exact stringSubstr_of_drop hdrop (by simpa using h.1)

theorem getDouble_of_found {Number : Type} {doubles : Doubles Number} {reader : JsonReader} {key : Text}
    {number : Number} (h : doubles.PrintsPlainly number)
    (hfound : reader.findRawValue key = some (doubles.numberToString number))
    (defaultValue : Number) : reader.getDouble doubles key defaultValue = number := by
  obtain ⟨numeral, hplain, htext⟩ := h
  unfold getDouble
  rw [hfound]
  dsimp only
  rw [stringToDouble, htext, plainNumber_text hplain]
  exact doubles.toNearest_printed number numeral hplain htext

end JsonReader

namespace InstructionBody

variable {Number : Type}

/-- The string fields, in the order in which they are sent. -/
def strings (instruction : InstructionBody Number) : List (String × Option String) :=
  [("copyId", some instruction.copyId), ("action", some instruction.action),
    ("symbol", some instruction.symbol), ("side", instruction.side),
    ("slaveTicket", instruction.slaveTicket)]

def numbers (instruction : InstructionBody Number) : List (String × Option Number) :=
  [("volume", instruction.volume), ("sl", instruction.sl), ("tp", instruction.tp)]

/-- The names of the fields that are present. -/
def present (instruction : InstructionBody Number) : List String :=
  (instruction.strings.filter fun field => field.2.isSome).map Prod.fst ++
    (instruction.numbers.filter fun field => field.2.isSome).map Prod.fst

/-- All fields with the texts of their values. -/
def fields (doubles : Doubles Number) (instruction : InstructionBody Number) :
    List (Text × Option Text) :=
  [(ofString "copyId", some (stringifyString instruction.copyId)),
    (ofString "action", some (stringifyString instruction.action)),
    (ofString "symbol", some (stringifyString instruction.symbol)),
    (ofString "side", instruction.side.map stringifyString),
    (ofString "volume", instruction.volume.map doubles.numberToString),
    (ofString "sl", instruction.sl.map doubles.numberToString),
    (ofString "tp", instruction.tp.map doubles.numberToString),
    (ofString "slaveTicket", instruction.slaveTicket.map stringifyString)]

/-- The properties, by their keys as they are written. -/
def written (doubles : Doubles Number) (instruction : InstructionBody Number) : List (Text × Text) :=
  (instruction.fields doubles).filterMap fun field => field.2.map fun raw => (field.1, raw)

theorem written_eq (doubles : Doubles Number) (instruction : InstructionBody Number) :
    instruction.written doubles =
      (instruction.properties doubles).map fun property => (ofString property.1, property.2) := by
  have hfield (key : Text) (value : Option Text) (rest : List (Text × Option Text)) :
      ((key, value) :: rest).filterMap (fun field => field.2.map fun raw => (field.1, raw)) =
        (value.map fun raw => (key, raw)).toList ++
          rest.filterMap fun field => field.2.map fun raw => (field.1, raw) := by
    cases value <;> rfl
  simp only [written, fields, properties, hfield, List.filterMap_nil, List.map_append,
    List.map_cons, Option.toList_map, Option.map_map, Function.comp_def,
    Option.map_some, Option.toList_some, List.append_assoc, List.append_nil, List.cons_append,
    List.nil_append, List.map_map]

theorem stringify_eq (doubles : Doubles Number) (instruction : InstructionBody Number) :
    instruction.stringify doubles = chain openBrace (instruction.written doubles) := by
  have hne : instruction.written doubles ≠ [] := by
    rw [written_eq]
    simp [properties]
  rw [← chain_eq hne, written_eq, List.map_map]
  rfl

theorem fields_unique (doubles : Doubles Number) (instruction : InstructionBody Number) :
    ((instruction.fields doubles).map Prod.fst).Nodup := by
  have hnames : (["copyId", "action", "symbol", "side", "volume", "sl", "tp", "slaveTicket"].map
      ofString).Nodup := by
    decide +kernel
  exact hnames

theorem fields_identifier (doubles : Doubles Number) (instruction : InstructionBody Number)
    {field : Text × Option Text} (h : field ∈ instruction.fields doubles) : IsIdentifier field.1 := by
  have hnames : ∀ name ∈ ["copyId", "action", "symbol", "side", "volume", "sl", "tp",
      "slaveTicket"].map ofString, IsIdentifier name := by
    decide +kernel
  exact hnames _ (List.mem_map_of_mem h : field.1 ∈ (instruction.fields doubles).map Prod.fst)

/-- The strings are as documented, and the numbers are printed in plain decimals. -/
structure Plain (doubles : Doubles Number) (instruction : InstructionBody Number) : Prop where
  strings : ∀ field ∈ instruction.strings, ∀ s ∈ field.2, Documented s
  numbers : ∀ field ∈ instruction.numbers, ∀ number ∈ field.2, doubles.PrintsPlainly number

variable {doubles : Doubles Number} {instruction : InstructionBody Number}

/-- The slave's ticket is sent behind the numbers. -/
theorem fields_perm (doubles : Doubles Number) (instruction : InstructionBody Number) :
    (instruction.fields doubles).Perm
      ((instruction.strings.map fun f => (ofString f.1, f.2.map stringifyString)) ++
        instruction.numbers.map fun f => (ofString f.1, f.2.map doubles.numberToString)) := by
  have hlast {α : Type} (a b c d e f g x : α) :
      [a, b, c, d, e, f, g, x].Perm [a, b, c, d, x, e, f, g] :=
    (List.perm_append_comm : ([e, f, g] ++ [x]).Perm ([x] ++ [e, f, g])).append_left [a, b, c, d]
  simp only [fields, strings, numbers, List.map_cons, List.map_nil, List.cons_append, List.nil_append,
    Option.map_some]
  exact hlast _ _ _ _ _ _ _ _

theorem mem_fields {field : Text × Option Text} : field ∈ instruction.fields doubles ↔
    (∃ f ∈ instruction.strings, (ofString f.1, f.2.map stringifyString) = field) ∨
      ∃ f ∈ instruction.numbers, (ofString f.1, f.2.map doubles.numberToString) = field := by
  rw [(fields_perm doubles instruction).mem_iff, List.mem_append, List.mem_map, List.mem_map]

theorem Plain.flat (h : instruction.Plain doubles) : Flat (instruction.written doubles) := by
  intro property hproperty
  obtain ⟨field, hfield, hraw⟩ := List.mem_filterMap.mp hproperty
  obtain ⟨raw, hentry, rfl⟩ := Option.map_eq_some_iff.mp hraw
  refine ⟨fields_identifier doubles instruction hfield, ?_⟩
  rcases mem_fields.mp hfield with ⟨f, hf, rfl⟩ | ⟨f, hf, rfl⟩
  · obtain ⟨s, hs, rfl⟩ := Option.map_eq_some_iff.mp hentry
    exact flatValue_string (h.strings f hf s hs)
  · obtain ⟨number, hnumber, rfl⟩ := Option.map_eq_some_iff.mp hentry
    obtain ⟨numeral, -, htext⟩ := h.numbers f hf number hnumber
    exact htext ▸ flatValue_numeral numeral

/-- Every name finds the text that is written under it. -/
theorem Plain.findRawValue (h : instruction.Plain doubles) {key : Text} (hkey : IsIdentifier key) :
    (JsonReader.init (instruction.stringify doubles)).findRawValue key =
      (Table.lookup Prod.fst key (instruction.written doubles)).map Prod.snd := by
  rw [stringify_eq]
  exact findRawValue_chain hkey h.flat

theorem Plain.findRawValue_field (h : instruction.Plain doubles) {field : Text × Option Text}
    (hfield : field ∈ instruction.fields doubles) :
    (JsonReader.init (instruction.stringify doubles)).findRawValue field.1 = field.2 := by
  rw [h.findRawValue (fields_identifier doubles instruction hfield), written,
    Table.lookup_filterMap (fields_unique doubles instruction) hfield]
  cases field.2 <;> rfl

theorem mem_present {α : Type} (print : α → Text) {columns : List (String × Option α)} {key : Text} :
    key ∈ ((columns.filter fun column => column.2.isSome).map Prod.fst).map ofString ↔
      ∃ raw, ∃ column ∈ columns, (ofString column.1, column.2.map print) = (key, some raw) := by
  rw [List.map_map, List.mem_map]
  constructor
  · rintro ⟨column, hcolumn, rfl⟩
    obtain ⟨hmem, hsome⟩ := List.mem_filter.mp hcolumn
    obtain ⟨value, hvalue⟩ := Option.isSome_iff_exists.mp hsome
    exact ⟨print value, column, hmem, by rw [hvalue]; rfl⟩
  · rintro ⟨raw, column, hmem, hpair⟩
    obtain ⟨hkey, hraw⟩ := Prod.mk.inj hpair
    obtain ⟨value, hvalue, -⟩ := Option.map_eq_some_iff.mp hraw
    exact ⟨column, List.mem_filter.mpr ⟨hmem, by simp [hvalue]⟩, hkey⟩

/-- A name is found where its field is present. -/
theorem Plain.findRawValue_isSome (h : instruction.Plain doubles) {key : Text}
    (hkey : IsIdentifier key) :
    ((JsonReader.init (instruction.stringify doubles)).findRawValue key).isSome ↔
      key ∈ instruction.present.map ofString := by
  have hpresent : key ∈ instruction.present.map ofString ↔
      ∃ raw, (key, some raw) ∈ instruction.fields doubles := by
    simp only [mem_fields, present, List.map_append, List.mem_append, exists_or,
      mem_present stringifyString, mem_present doubles.numberToString]
  rw [hpresent, h.findRawValue hkey]
  constructor
  · intro hfound
    obtain ⟨raw, hraw⟩ := Option.isSome_iff_exists.mp hfound
    obtain ⟨property, hlookup, rfl⟩ := Option.map_eq_some_iff.mp hraw
    obtain ⟨field, hfield, hentry⟩ := List.mem_filterMap.mp (Table.lookup_mem hlookup)
    obtain ⟨raw, hsome, rfl⟩ := Option.map_eq_some_iff.mp hentry
    obtain rfl := Table.lookup_key hlookup
    exact ⟨raw, hsome ▸ hfield⟩
  · rintro ⟨raw, hmem⟩
    rw [written, Table.lookup_filterMap (fields_unique doubles instruction) hmem]
    rfl

theorem Plain.getString (h : instruction.Plain doubles) {field : String × Option String}
    (hfield : field ∈ instruction.strings) (defaultValue : Text) :
    (JsonReader.init (instruction.stringify doubles)).getString (ofString field.1) defaultValue =
      (field.2.map ofString).getD defaultValue := by
  have hfound := h.findRawValue_field (mem_fields.mpr (.inl ⟨field, hfield, rfl⟩))
  cases hvalue : field.2 with
  | none =>
      rw [hvalue] at hfound
      simp only [JsonReader.getString, hfound, Option.map_none, Option.getD_none]
  | some s =>
      rw [hvalue] at hfound
      exact JsonReader.getString_of_found (h.strings field hfield s hvalue) hfound defaultValue

theorem Plain.getDouble (h : instruction.Plain doubles) {field : String × Option Number}
    (hfield : field ∈ instruction.numbers) (defaultValue : Number) :
    (JsonReader.init (instruction.stringify doubles)).getDouble doubles (ofString field.1)
      defaultValue = field.2.getD defaultValue := by
  have hfound := h.findRawValue_field (mem_fields.mpr (.inr ⟨field, hfield, rfl⟩))
  cases hvalue : field.2 with
  | none =>
      rw [hvalue] at hfound
      simp only [JsonReader.getDouble, hfound, Option.map_none, Option.getD_none]
  | some number =>
      rw [hvalue] at hfound
      exact JsonReader.getDouble_of_found (h.numbers field hfield number hvalue) hfound defaultValue

end InstructionBody

/-- What `JSON.stringify` makes of an instruction whose strings are as the reader's header documents and
whose numbers are printed in plain decimals is read as it was: the strings, the numbers, the defaults
in the place of absent fields, and no key but those of the present fields. -/
theorem instruction_read_back {Number : Type} {doubles : Doubles Number}
    {instruction : InstructionBody Number} (h : instruction.Plain doubles) :
    (∀ field ∈ instruction.strings, ∀ defaultValue,
      (JsonReader.init (instruction.stringify doubles)).getString (ofString field.1) defaultValue =
        (field.2.map ofString).getD defaultValue) ∧
    (∀ field ∈ instruction.numbers, ∀ defaultValue,
      (JsonReader.init (instruction.stringify doubles)).getDouble doubles (ofString field.1)
        defaultValue = field.2.getD defaultValue) ∧
    ∀ key, IsIdentifier key →
      ((JsonReader.init (instruction.stringify doubles)).hasKey key ↔
        key ∈ instruction.present.map ofString) ∧
      (key ∉ instruction.present.map ofString → ∀ text number,
        (JsonReader.init (instruction.stringify doubles)).getString key text = text ∧
        (JsonReader.init (instruction.stringify doubles)).getDouble doubles key number = number) := by
  refine ⟨fun field => h.getString, fun field => h.getDouble,
    fun key hkey => ⟨h.findRawValue_isSome hkey, fun habsent text number => ?_⟩⟩
  have hnone : (JsonReader.init (instruction.stringify doubles)).findRawValue key = none := by
    rw [← Option.not_isSome_iff_eq_none, h.findRawValue_isSome hkey]
    exact habsent
  exact ⟨by simp only [JsonReader.getString, hnone], by simp only [JsonReader.getDouble, hnone]⟩

/-! ### Binary doubles -/

theorem mantissa_fixedNotation {q : ℚ} {digits : ℕ} (h : Decimal.OnGrid digits q) :
    (fixedNotation q digits).mantissa = q := by
  have hpow := Decimal.pow_scale_pos digits
  obtain ⟨n, rfl⟩ := Decimal.onGrid_iff.mp h
  have hscaled : |(n / 10 ^ digits : ℚ)| * 10 ^ digits = ((n.natAbs : ℤ) : ℚ) := by
    rw [abs_div, abs_of_pos hpow, div_mul_cancel₀ _ hpow.ne', Int.natCast_natAbs, Int.cast_abs]
  have hnegative : (n / 10 ^ digits : ℚ) < 0 ↔ n < 0 := by
    rw [div_neg_iff]
    simp [hpow, hpow.not_gt]
  unfold fixedNotation
  rw [Numeral.mantissa_ofUnits, hscaled, roundHalfUp_intCast, Int.toNat_natCast, Nat.cast_natAbs,
    Int.cast_abs]
  simp only [decide_eq_true_iff, hnegative]
  split_ifs with hn
  · rw [abs_of_neg (by exact_mod_cast hn)]
    ring
  · rw [abs_of_nonneg (by exact_mod_cast not_lt.mp hn), one_mul]

theorem onGrid_fractionDigits {q : ℚ} (h : Binary64.IsNumber q) :
    Decimal.OnGrid (fractionDigits q) q := by
  unfold fractionDigits
  cases hfound : (List.range 325).find? fun digits => Decimal.OnGrid digits q with
  | some digits => simpa using List.find?_some hfound
  | none =>
      have hgrid : Decimal.OnGrid 324 q := Decimal.onGrid_iff.mpr (h ▸ Binary64.number_digits q)
      have hbarred := List.find?_eq_none.mp hfound 324 (by decide)
      exact absurd (decide_eq_true hgrid) hbarred

/-- A numeral without an exponent has no `e`. -/
theorem not_mem_text_of_plain {numeral : Numeral} (h : numeral.exponent = none) :
    (0x65 : UInt16) ∉ numeral.text := by
  have hdigits (ds : List Digit) : (0x65 : UInt16) ∉ Digits.text ds := fun hmem =>
    absurd (Digits.isDigit_of_mem_text hmem) (by decide)
  unfold Numeral.text Numeral.signText Numeral.fractionText
  rw [h]
  split_ifs <;> simp [Numeral.exponentText, hdigits, minus, point]

/-- The doubles of JavaScript and of the terminals. -/
def binary64 : Doubles Binary64.Number where
  toNearest q := ⟨Binary64.number q, Binary64.isNumber_number q⟩
  numberToString number := (numberNotation number.val).text
  toNearest_printed := by
    rintro ⟨q, hq⟩ numeral hplain htext
    unfold numberNotation at htext
    split_ifs at htext with hfixed
    · have hmantissa : numeral.mantissa = q := by
        rw [← plainNumber_text hplain, ← htext, plainNumber_text rfl,
          mantissa_fixedNotation (onGrid_fractionDigits hq)]
      exact Subtype.ext (hmantissa.symm ▸ hq)
    · refine absurd ?_ (not_mem_text_of_plain hplain)
      rw [← htext]
      simp [Numeral.text, Numeral.exponentText]

namespace Sample

/-- A symbol with the name of a key, and neither `tp` nor `slaveTicket`. -/
def instruction : InstructionBody Binary64.Number :=
  { copyId := "5b0c", action := "OPEN", symbol := "sl", side := some "BUY",
    volume := some (binary64.toNearest (1 / 2)), sl := some (binary64.toNearest (5 / 4)) }

end Sample

open Sample in
theorem sample_read_back :
    (JsonReader.init (instruction.stringify binary64)).getString (ofString "symbol") [] =
        ofString "sl" ∧
      ((JsonReader.init (instruction.stringify binary64)).getDouble binary64 (ofString "sl")
        (binary64.toNearest 0)).val = 5 / 4 ∧
      ((JsonReader.init (instruction.stringify binary64)).getDouble binary64 (ofString "tp")
        (binary64.toNearest 0)).val = 0 ∧
      ¬(JsonReader.init (instruction.stringify binary64)).hasKey (ofString "slaveTicket") := by
  have hplain : instruction.Plain binary64 := by
    refine ⟨by decide +kernel, ?_⟩
    intro field hfield number hnumber
    simp only [InstructionBody.numbers, instruction, List.mem_cons, List.not_mem_nil, or_false]
      at hfield
    rcases hfield with rfl | rfl | rfl
    · obtain rfl := Option.some.inj hnumber
      exact ⟨fixedNotation (1 / 2) 1, rfl, by decide +kernel⟩
    · obtain rfl := Option.some.inj hnumber
      exact ⟨fixedNotation (5 / 4) 2, rfl, by decide +kernel⟩
    · cases hnumber
  obtain ⟨hstrings, hnumbers, hkeys⟩ := instruction_read_back hplain
  refine ⟨hstrings ("symbol", some "sl") (by decide +kernel) [], ?_, ?_, ?_⟩
  · rw [hnumbers ("sl", some (binary64.toNearest (5 / 4))) (by decide +kernel)]
    decide +kernel
  · rw [hnumbers ("tp", none) (by decide +kernel)]
    decide +kernel
  · rw [(hkeys (ofString "slaveTicket") (by decide +kernel)).1]
    decide +kernel

/-! ### What is executed -/

/-- The call that an instruction is meant to lead to. -/
def CopyInstruction.call {Number : Type} (doubles : Doubles Number) (uuid : Uuid → String)
    (instruction : CopyInstruction) : InstructionCall Number :=
  let copyId := ofString (uuid instruction.copyId)
  let number (amount : Option ℚ) : Number := doubles.toNearest (amount.getD 0)
  let slaveTicket := (instruction.slaveTicket.map ofString).getD []
  match instruction.action with
  | .open => .executeOpen copyId (ofString instruction.symbol)
      ((instruction.side.map fun side => ofString side.name).getD []) (number instruction.volume)
      (number instruction.sl) (number instruction.tp)
  | .close => .executeClose copyId slaveTicket
  | .modify => .executeModify copyId slaveTicket (number instruction.sl) (number instruction.tp)
  | .partialClose | .pendingOpen | .pendingModify | .pendingCancel =>
    .unsupported copyId (ofString instruction.action.name)

theorem TradeEventType.name_eq_iff (type other : TradeEventType) :
    ofString type.name = ofString other.name ↔ type = other := by
  cases type <;> cases other <;> decide +kernel

/-- A poll leads to the call that the instruction in its response is meant to lead to. -/
theorem pollForInstruction_stringify {Number : Type} {doubles : Doubles Number}
    {uuid : Uuid → String} {instruction : CopyInstruction}
    (h : (instruction.toBody doubles uuid).Plain doubles) :
    pollForInstruction doubles ((instruction.toBody doubles uuid).stringify doubles) =
      instruction.call doubles uuid := by
  have hstring (name : String) (value : Option String)
      (hmem : (name, value) ∈ (instruction.toBody doubles uuid).strings) := h.getString hmem []
  have hnumber (name : String) (value : Option ℚ)
      (hmem : (name, value.map doubles.toNearest) ∈ (instruction.toBody doubles uuid).numbers) :
      (JsonReader.init ((instruction.toBody doubles uuid).stringify doubles)).getDouble doubles
        (ofString name) (doubles.toNearest 0) = doubles.toNearest (value.getD 0) := by
    rw [h.getDouble hmem]
    cases value <;> rfl
  have hcopyId := hstring "copyId" (some (uuid instruction.copyId)) (by
    simp [InstructionBody.strings, CopyInstruction.toBody])
  have haction := hstring "action" (some instruction.action.name) (by
    simp [InstructionBody.strings, CopyInstruction.toBody])
  have hsymbol := hstring "symbol" (some instruction.symbol) (by
    simp [InstructionBody.strings, CopyInstruction.toBody])
  have hside := hstring "side" (instruction.side.map TradeSide.name) (by
    simp [InstructionBody.strings, CopyInstruction.toBody])
  have hslaveTicket := hstring "slaveTicket" instruction.slaveTicket (by
    simp [InstructionBody.strings, CopyInstruction.toBody])
  have hvolume := hnumber "volume" instruction.volume (by
    simp [InstructionBody.numbers, CopyInstruction.toBody])
  have hsl := hnumber "sl" instruction.sl (by simp [InstructionBody.numbers, CopyInstruction.toBody])
  have htp := hnumber "tp" instruction.tp (by simp [InstructionBody.numbers, CopyInstruction.toBody])
  -- Neither string that is looked at first is empty.
  have hread : ¬((ofString (uuid instruction.copyId)).length = 0 ∨
      (ofString instruction.action.name).length = 0) := by
    have hne := (h.strings ("copyId", some (uuid instruction.copyId))
      (by simp [InstructionBody.strings, CopyInstruction.toBody]) _ rfl).1
    rintro (hnil | hnil)
    · exact hne (ofString_eq_nil.mp (List.length_eq_zero_iff.mp hnil))
    · revert hnil
      cases instruction.action <;> decide +kernel
  unfold pollForInstruction CopyInstruction.call
  simp only [hcopyId, haction, hsymbol, hside, hslaveTicket, hvolume, hsl, htp, Option.map_some,
    Option.getD_some, Option.map_map, hread, if_false]
  have hopen : ofString instruction.action.name = ofString "OPEN" ↔ instruction.action = .open :=
    TradeEventType.name_eq_iff _ .open
  have hclose : ofString instruction.action.name = ofString "CLOSE" ↔ instruction.action = .close :=
    TradeEventType.name_eq_iff _ .close
  have hmodify : ofString instruction.action.name = ofString "MODIFY" ↔
      instruction.action = .modify := TradeEventType.name_eq_iff _ .modify
  simp only [hopen, hclose, hmodify]
  cases instruction.action <;> rfl

end ForexCopy
