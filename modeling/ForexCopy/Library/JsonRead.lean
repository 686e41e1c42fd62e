import ForexCopy.Library.Json
import Mathlib.Data.List.TakeWhile

/-!
# How JSON texts are read

What a token, a list of items or a value is read as does not depend on what stands behind it, as long as
a value is followed by a delimiter. So a text that is put together from the texts of its parts is read
as the values that these are read as, and as no value as soon as one of them is none.
-/

open Utf16

namespace Json

/-- What may follow a value. -/
def Delimited (rest : Text) : Prop :=
  ∀ u ∈ rest.head?, u = comma ∨ u = closeBrace ∨ u = closeBracket

/-- A unit that stands for itself in a string. -/
def Plain (u : UInt16) : Prop := u ≠ quote ∧ u ≠ backslash ∧ ¬u < 0x20

instance (u : UInt16) : Decidable (Plain u) := inferInstanceAs (Decidable (_ ∧ _ ∧ _))

section

variable {t s r rest : Text} {u : UInt16}

theorem delimited_nil : Delimited [] := by simp [Delimited]

theorem delimited_cons : Delimited (u :: rest) ↔ u = comma ∨ u = closeBrace ∨ u = closeBracket := by
  simp [Delimited]

/-! ### Blanks -/

theorem skipBlanks_of_delimited (h : Delimited rest) : skipBlanks rest = rest := by
  cases rest with
  | nil => rfl
  | cons u rest =>
      rcases delimited_cons.mp h with rfl | rfl | rfl <;> rfl

theorem skipBlanks_append (h : skipBlanks t = [] → Delimited rest) :
    skipBlanks (t ++ rest) = skipBlanks t ++ rest := by
  unfold skipBlanks at h ⊢
  rw [List.dropWhile_append]
  split_ifs with hempty
  · have hnil : t.dropWhile IsBlank = [] := by simpa using hempty
    rw [hnil, List.nil_append]
    exact skipBlanks_of_delimited (h hnil)
  · rfl

/-- Blanks that end in the text end there whatever stands behind. -/
theorem skipBlanks_append_of_cons {left : Text} (h : skipBlanks t = u :: left) (rest : Text) :
    skipBlanks (t ++ rest) = u :: (left ++ rest) := by
  rw [skipBlanks_append (by simp [h]), h]
  rfl

/-! ### Strings -/

@[simp] theorem stringBody_quote (rest : Text) : stringBody (quote :: rest) = some ([], rest) := by
  rw [stringBody.eq_def]
  exact if_pos rfl

theorem stringBody_hex (a b c d : UInt16) (rest : Text) :
    stringBody (backslash :: 0x75 :: a :: b :: c :: d :: rest) =
      (hexUnit a b c d).bind fun unit => (stringBody rest).map (Prod.map (unit :: ·) id) := by
  rw [stringBody.eq_def]
  exact if_neg (by decide)

theorem stringBody_escape {e : UInt16} (he : e ≠ 0x75) (rest : Text) :
    stringBody (backslash :: e :: rest) =
      (unescape e).bind fun unit => (stringBody rest).map (Prod.map (unit :: ·) id) := by
  rw [stringBody.eq_def]
  simp only [if_neg (show backslash ≠ quote by decide), if_true]
  split
  · rename_i heq
    cases heq
  · rename_i heq
    injection heq with heq
    exact absurd heq he
  · rename_i heq
    injection heq with heq hrest
    rw [heq, hrest]

theorem stringBody_plain (h : Plain u) (rest : Text) :
    stringBody (u :: rest) = (stringBody rest).map (Prod.map (u :: ·) id) := by
  obtain ⟨hquote, hbackslash, hcontrol⟩ := h
  rw [stringBody.eq_def]
  dsimp only
  rw [if_neg hquote, if_neg hbackslash, if_neg hcontrol]

theorem stringBody_control (h : u < 0x20) (rest : Text) : stringBody (u :: rest) = none := by
  have hquote : u ≠ quote := by
    rintro rfl
    exact absurd h (by decide)
  have hbackslash : u ≠ backslash := by
    rintro rfl
    exact absurd h (by decide)
  rw [stringBody.eq_def]
  dsimp only
  rw [if_neg hquote, if_neg hbackslash, if_pos h]

/-- A text of plain units is read as it is. -/
theorem stringBody_plains (h : ∀ u ∈ s, Plain u) (rest : Text) :
    stringBody (s ++ quote :: rest) = some (s, rest) := by
  induction s with
  | nil => exact stringBody_quote rest
  | cons u s ih =>
      rw [List.cons_append, stringBody_plain (h u List.mem_cons_self),
        ih fun v hv => h v (List.mem_cons_of_mem _ hv)]
      rfl

theorem stringBody_append (h : stringBody t = some (s, r)) (rest : Text) :
    stringBody (t ++ rest) = some (s, r ++ rest) := by
  fun_induction stringBody t generalizing s with
  | case1 | case3 | case6 => cases h
  | case2 =>
      cases h
      exact stringBody_quote _
  | case4 a b c d t _ ih =>
      obtain ⟨unit, hunit, hbody⟩ := Option.bind_eq_some_iff.mp h
      obtain ⟨⟨body, left⟩, hread, hpair⟩ := Option.map_eq_some_iff.mp hbody
      cases hpair
      simp only [List.cons_append]
      rw [stringBody_hex, hunit, ih hread]
      rfl
  | case5 e t _ _ ih =>
      obtain ⟨unit, hunit, hbody⟩ := Option.bind_eq_some_iff.mp h
      obtain ⟨⟨body, left⟩, hread, hpair⟩ := Option.map_eq_some_iff.mp hbody
      cases hpair
      have he : e ≠ 0x75 := by
        rintro rfl
        cases hunit
      simp only [List.cons_append]
      rw [stringBody_escape he, hunit, ih hread]
      rfl
  | case7 u t hquote hbackslash hcontrol ih =>
      obtain ⟨⟨body, left⟩, hread, hpair⟩ := Option.map_eq_some_iff.mp h
      cases hpair
      rw [List.cons_append, stringBody_plain ⟨hquote, hbackslash, hcontrol⟩, ih hread]
      rfl

/-! ### Numbers and keywords -/

theorem isNumeric_of_delimited (h : Delimited rest) : ∀ u ∈ rest.head?, IsNumeric u = false := by
  intro u hu
  rcases h u hu with rfl | rfl | rfl <;> decide

theorem takeWhile_numeric_append (h : t.dropWhile IsNumeric = [] → Delimited rest) :
    (t ++ rest).takeWhile IsNumeric = t.takeWhile IsNumeric ∧
      (t ++ rest).dropWhile IsNumeric = t.dropWhile IsNumeric ++ rest := by
  induction t with
  | nil =>
      cases rest with
      | nil => simp
      | cons u rest => simp [isNumeric_of_delimited (h rfl) u rfl]
  | cons u t ih =>
      cases hu : IsNumeric u with
      | true =>
          simp only [List.dropWhile_cons, hu, if_true] at h
          simp [hu, ih h]
      | false => simp [hu]

theorem numberToken_append {json : Json} (h : numberToken t = some (json, r))
    (hrest : r = [] → Delimited rest) : numberToken (t ++ rest) = some (json, r ++ rest) := by
  unfold numberToken at h ⊢
  split_ifs at h with hnumber
  cases h
  obtain ⟨htake, hdrop⟩ := takeWhile_numeric_append hrest
  rw [htake, hdrop, if_pos hnumber]

theorem keyword_append {word : String} {json json' : Json} (h : keyword word json t = some (json', r))
    (rest : Text) : keyword word json (t ++ rest) = some (json', r ++ rest) := by
  unfold keyword at h ⊢
  split_ifs at h with hprefix
  cases h
  obtain ⟨tail, rfl⟩ := List.isPrefixOf_iff_prefix.mp hprefix
  rw [if_pos (List.isPrefixOf_iff_prefix.mpr ⟨tail ++ rest, by rw [List.append_assoc]⟩),
    List.append_assoc, List.drop_left, List.drop_left]

theorem scalar_append {json : Json} (h : scalar u t = some (json, r))
    (hrest : r = [] → Delimited rest) : scalar u (t ++ rest) = some (json, r ++ rest) := by
  unfold scalar at h ⊢
  split_ifs at h ⊢
  · exact keyword_append h rest
  · exact keyword_append h rest
  · exact keyword_append h rest
  · exact numberToken_append h hrest

end

/-! ### What stands behind -/

section

variable {α : Type} {item item' : Text → Option (α × Text)} {close : UInt16}

/-- `item'` reads what `item` reads, whatever stands behind. -/
def Extends (item item' : Text → Option (α × Text)) : Prop :=
  ∀ ⦃t a r rest⦄, item t = some (a, r) → (r = [] → Delimited rest) →
    item' (t ++ rest) = some (a, r ++ rest)

theorem Extends.separated (h : Extends item item') {n n' : ℕ} (hle : n ≤ n') {t r : Text} {as : List α}
    (hread : separated item close n t = some (as, r)) (rest : Text) :
    separated item' close n' (t ++ rest) = some (as, r ++ rest) := by
  induction n generalizing n' t as with
  | zero => cases hread
  | succ n ih =>
      obtain ⟨n', rfl⟩ : ∃ k, n' = k + 1 := ⟨n' - 1, by omega⟩
      rw [Json.separated] at hread ⊢
      obtain ⟨⟨a, left⟩, hitem, hread⟩ := Option.bind_eq_some_iff.mp hread
      cases left with
      | nil => cases hread
      | cons u left =>
          rw [h hitem (by simp), Option.bind_some]
          dsimp only [List.cons_append] at hread ⊢
          split_ifs at hread ⊢
          · cases hread
            rfl
          · obtain ⟨⟨tail, last⟩, htail, hpair⟩ := Option.map_eq_some_iff.mp hread
            cases hpair
            rw [ih (by omega) htail]
            rfl

theorem Extends.listed (h : Extends item item') {n n' : ℕ} (hle : n ≤ n') {t r : Text} {as : List α}
    (hread : listed item close n t = some (as, r)) (rest : Text) :
    listed item' close n' (t ++ rest) = some (as, r ++ rest) := by
  unfold Json.listed at hread ⊢
  cases hskip : skipBlanks t with
  | nil =>
      rw [hskip] at hread
      cases hread
  | cons u left =>
      rw [hskip] at hread
      rw [skipBlanks_append_of_cons hskip]
      dsimp only at hread ⊢
      split_ifs at hread ⊢
      · cases hread
        rfl
      · exact h.separated hle hread rest

theorem Extends.member (h : Extends item item') : Extends (member item) (member item') := by
  intro t a r rest hread hrest
  unfold Json.member at hread ⊢
  cases hskip : skipBlanks t with
  | nil =>
      rw [hskip] at hread
      cases hread
  | cons u left =>
      rw [hskip] at hread
      rw [skipBlanks_append_of_cons hskip]
      dsimp only at hread ⊢
      split_ifs at hread ⊢
      obtain ⟨⟨key, behind⟩, hkey, hread⟩ := Option.bind_eq_some_iff.mp hread
      rw [stringBody_append hkey, Option.bind_some]
      cases hcolon : skipBlanks behind with
      | nil =>
          simp only [hcolon] at hread
          cases hread
      | cons u left =>
          simp only [hcolon] at hread
          simp only [skipBlanks_append_of_cons hcolon]
          split_ifs at hread ⊢
          obtain ⟨⟨json, last⟩, hitem, hpair⟩ := Option.map_eq_some_iff.mp hread
          cases hpair
          rw [h hitem hrest]
          rfl

end

/-- More fuel and a text behind a value change nothing. -/
theorem value_extends {fuel fuel' : ℕ} (hle : fuel ≤ fuel') : Extends (value fuel) (value fuel') := by
  induction fuel generalizing fuel' with
  | zero =>
      intro t a r rest hread
      cases hread
  | succ fuel ih =>
      obtain ⟨fuel', rfl⟩ : ∃ k, fuel' = k + 1 := ⟨fuel' - 1, by omega⟩
      have hvalue : Extends (value fuel) (value fuel') := ih (by omega)
      intro t a r rest hread hrest
      rw [value] at hread ⊢
      cases hskip : skipBlanks t with
      | nil =>
          rw [hskip] at hread
          cases hread
      | cons u left =>
          rw [hskip] at hread
          rw [skipBlanks_append_of_cons hskip]
          dsimp only at hread ⊢
          obtain ⟨⟨token, behind⟩, htoken, hpair⟩ := Option.map_eq_some_iff.mp hread
          cases hpair
          refine Option.map_eq_some_iff.mpr ⟨(token, behind ++ rest), ?_,
            congrArg (Prod.mk token) (skipBlanks_append hrest)⟩
          split_ifs at htoken ⊢
          · obtain ⟨⟨body, last⟩, hbody, hpair⟩ := Option.map_eq_some_iff.mp htoken
            cases hpair
            rw [stringBody_append hbody]
            rfl
          · obtain ⟨⟨members, last⟩, hlisted, hpair⟩ := Option.map_eq_some_iff.mp htoken
            cases hpair
            rw [hvalue.member.listed (by omega) hlisted]
            rfl
          · obtain ⟨⟨items, last⟩, hlisted, hpair⟩ := Option.map_eq_some_iff.mp htoken
            cases hpair
            rw [hvalue.listed (by omega) hlisted]
            rfl
          · have hbehind : behind = [] → Delimited rest := fun hnil => hrest (by simp [hnil, skipBlanks])
            have hscalar := scalar_append htoken hbehind
            exact hscalar

/-! ### Texts that are put together -/

/-- The text is read as the outcome, wherever it stands. -/
def Reads (t : Text) (outcome : Option Json) : Prop :=
  ∀ fuel rest, t.length < fuel → Delimited rest → value fuel (t ++ rest) = outcome.map (·, rest)

/-- The text of `items`, with commas between them. -/
def joined (items : List Text) : Text := [comma].intercalate items

/-- A member of an object with a plain key. -/
def memberText (key raw : Text) : Text := [quote] ++ key ++ [quote, colon] ++ raw

theorem joined_map_cons (text : Text) (texts : List Text) :
    joined (text :: texts) = text ++ texts.flatMap (comma :: ·) := by
  unfold joined
  induction texts generalizing text with
  | nil => simp
  | cons next texts ih => simp [List.intercalate_cons_cons, ih]

/-- A member's text, and what it is read as if its value is read as the outcome. -/
def memberPart (m : Text × Text × Option Json) : Text × Option (Text × Json) :=
  (memberText m.1 m.2.1, m.2.2.map fun json => (m.1, json))

theorem Reads.parse {t : Text} {outcome : Option Json} (h : Reads t outcome) : parse t = outcome := by
  have hread := h (t.length + 1) [] (by omega) delimited_nil
  rw [List.append_nil] at hread
  rw [Json.parse, hread]
  cases outcome with
  | none => rfl
  | some json => simp

theorem reads_of_parse {t : Text} {json : Json} (h : parse t = some json) : Reads t (some json) := by
  intro fuel rest hfuel hrest
  obtain ⟨⟨read, left⟩, hread, hleft⟩ := Option.bind_eq_some_iff.mp h
  obtain ⟨rfl, rfl⟩ : left = [] ∧ read = json := by simpa using hleft
  simpa using value_extends (Nat.succ_le_of_lt hfuel) hread fun _ => hrest

section

variable {t body rest : Text} {fuel : ℕ}

theorem skipBlanks_cons {u : UInt16} (hu : IsBlank u = false) : skipBlanks (u :: t) = u :: t := by
  simp [skipBlanks, hu]

theorem value_string : value (fuel + 1) (quote :: t) =
    ((stringBody t).map (Prod.map .string id)).map (Prod.map id skipBlanks) := by
  rw [value, skipBlanks_cons (by decide)]
  rfl

theorem value_object : value (fuel + 1) (openBrace :: t) =
    ((listed (member (value fuel)) closeBrace fuel t).map (Prod.map .object id)).map
      (Prod.map id skipBlanks) := by
  rw [value, skipBlanks_cons (by decide)]
  rfl

theorem value_array : value (fuel + 1) (openBracket :: t) =
    ((listed (value fuel) closeBracket fuel t).map (Prod.map .array id)).map
      (Prod.map id skipBlanks) := by
  rw [value, skipBlanks_cons (by decide)]
  rfl

theorem Reads.string {outcome : Option Text}
    (h : ∀ rest, stringBody (body ++ quote :: rest) = outcome.map (·, rest)) :
    Reads (quote :: (body ++ [quote])) (outcome.map .string) := by
  intro fuel rest hfuel hrest
  obtain ⟨fuel, rfl⟩ : ∃ k, fuel = k + 1 := ⟨fuel - 1, by omega⟩
  have hshape : quote :: (body ++ [quote]) ++ rest = quote :: (body ++ quote :: rest) := by simp
  rw [hshape, value_string, h rest]
  cases outcome with
  | none => rfl
  | some read => simp [skipBlanks_of_delimited hrest]

/-! ### Lists -/

section

variable {α : Type} {item : Text → Option (α × Text)} {close : UInt16} {parts : List (Text × Option α)}

theorem joined_cons (hparts : parts ≠ []) (part : Text × Option α) :
    joined ((part :: parts).map Prod.fst) = part.1 ++ comma :: joined (parts.map Prod.fst) := by
  unfold joined
  rw [List.map_cons, List.intercalate_cons_of_ne_nil (by simpa using hparts)]
  simp

theorem length_le_joined (parts : List (Text × Option α)) :
    parts.length ≤ (joined (parts.map Prod.fst)).length + 1 ∧
    ∀ part ∈ parts, part.1.length ≤ (joined (parts.map Prod.fst)).length := by
  induction parts with
  | nil => simp
  | cons part parts ih =>
      cases hparts : parts with
      | nil => simp [joined]
      | cons next others =>
          rw [← hparts, joined_cons (by simp [hparts])]
          simp only [List.length_append, List.length_cons, List.mem_cons, forall_eq_or_imp]
          refine ⟨by omega, by omega, fun other hother => ?_⟩
          have := ih.2 other hother
          omega

/-- Items are read one by one, up to the first that is none. -/
theorem separated_joined (hparts : parts ≠ [])
    (hitems : ∀ part ∈ parts, ∀ rest, Delimited rest → item (part.1 ++ rest) = part.2.map (·, rest))
    (hclose : close = closeBrace ∨ close = closeBracket) {n : ℕ} (hn : parts.length ≤ n)
    (rest : Text) :
    separated item close n (joined (parts.map Prod.fst) ++ close :: rest) =
      (parts.mapM Prod.snd).map (·, rest) := by
  have hcomma : comma ≠ close := by rcases hclose with rfl | rfl <;> decide
  induction parts generalizing n with
  | nil => exact absurd rfl hparts
  | cons part parts ih =>
      obtain ⟨n, rfl⟩ : ∃ k, n = k + 1 := ⟨n - 1, by simp at hn; omega⟩
      obtain ⟨hpart, hothers⟩ := List.forall_mem_cons.mp hitems
      rw [separated, List.mapM_cons]
      cases hlast : parts with
      | nil =>
          have hdelimited : Delimited (close :: rest) := delimited_cons.mpr (.inr hclose)
          simp only [joined, List.map_cons, List.map_nil, List.intercalate_singleton]
          rw [hpart _ hdelimited]
          cases part.2 <;> simp
      | cons next others =>
          have hdelimited (t : Text) : Delimited (comma :: t) := delimited_cons.mpr (.inl rfl)
          rw [← hlast, joined_cons (by simp [hlast]), List.append_assoc, List.cons_append,
            hpart _ (hdelimited _)]
          cases part.2 with
          | none => rfl
          | some a =>
              simp only [Option.map_some, Option.bind_some, if_neg hcomma, if_true]
              rw [ih (by simp [hlast]) hothers (by simpa using hn)]
              cases parts.mapM Prod.snd <;> rfl

/-- A text that begins like an item. -/
def Opens (close : UInt16) (t : Text) : Prop := ∃ u ∈ t.head?, IsBlank u = false ∧ u ≠ close

theorem listed_joined
    (hitems : ∀ part ∈ parts, ∀ rest, Delimited rest → item (part.1 ++ rest) = part.2.map (·, rest))
    (hopens : ∀ part ∈ parts, Opens close part.1)
    (hclose : close = closeBrace ∨ close = closeBracket) {n : ℕ} (hn : parts.length ≤ n)
    (rest : Text) :
    listed item close n (joined (parts.map Prod.fst) ++ close :: rest) =
      (parts.mapM Prod.snd).map (·, rest) := by
  have hblank : IsBlank close = false := by rcases hclose with rfl | rfl <;> decide
  cases hparts : parts with
  | nil =>
      rw [listed]
      simp only [joined, List.map_nil, List.intercalate_nil, List.nil_append, skipBlanks_cons hblank]
      rfl
  | cons part others =>
      obtain ⟨u, hu, hub, hne⟩ := hopens part (by simp [hparts])
      obtain ⟨tail, htail⟩ : ∃ tail, joined (parts.map Prod.fst) ++ close :: rest = u :: tail := by
        obtain ⟨left, hleft⟩ := List.head?_eq_some_iff.mp hu
        cases others with
        | nil => simp [hparts, joined, hleft]
        | cons next others =>
            rw [hparts, joined_cons (by simp), hleft]
            simp
      rw [← hparts, listed, htail, skipBlanks_cons hub]
      dsimp only
      rw [if_neg hne, ← htail]
      exact separated_joined (by simp [hparts]) hitems hclose hn rest

end

theorem member_reads {key raw : Text} {outcome : Option Json} (hkey : ∀ u ∈ key, Plain u)
    (h : Reads raw outcome) (hfuel : raw.length < fuel) {rest : Text} (hrest : Delimited rest) :
    member (value fuel) (memberText key raw ++ rest) =
      (outcome.map fun json => (key, json)).map (·, rest) := by
  have hshape : memberText key raw ++ rest = quote :: (key ++ quote :: colon :: (raw ++ rest)) := by
    simp [memberText]
  rw [hshape, member, skipBlanks_cons (by decide)]
  dsimp only
  rw [if_pos rfl, stringBody_plains hkey, Option.bind_some]
  dsimp only
  rw [skipBlanks_cons (by decide)]
  dsimp only
  rw [if_pos rfl, h fuel rest hfuel hrest]
  cases outcome <;> rfl

theorem Reads.array {parts : List (Text × Option Json)} (h : ∀ part ∈ parts, Reads part.1 part.2)
    (hopens : ∀ part ∈ parts, Opens closeBracket part.1) :
    Reads (openBracket :: (joined (parts.map Prod.fst) ++ [closeBracket]))
      ((parts.mapM Prod.snd).map .array) := by
  intro fuel rest hfuel hrest
  obtain ⟨hcount, hlengths⟩ := length_le_joined parts
  simp only [List.length_cons, List.length_append, List.length_nil] at hfuel
  obtain ⟨fuel, rfl⟩ : ∃ k, fuel = k + 1 := ⟨fuel - 1, by omega⟩
  have hitems : ∀ part ∈ parts, ∀ rest, Delimited rest →
      value fuel (part.1 ++ rest) = part.2.map (·, rest) := by
    intro part hpart rest hrest
    have := hlengths part hpart
    exact h part hpart fuel rest (by omega) hrest
  rw [List.cons_append, List.append_assoc, value_array]
  rw [List.singleton_append, listed_joined hitems hopens (.inr rfl) (by omega)]
  cases parts.mapM Prod.snd with
  | none => rfl
  | some items => simp [skipBlanks_of_delimited hrest]

/-- Members of an object with plain keys, each by its key, its text and what this is read as. -/
theorem Reads.object {members : List (Text × Text × Option Json)}
    (hkeys : ∀ m ∈ members, ∀ u ∈ m.1, Plain u) (h : ∀ m ∈ members, Reads m.2.1 m.2.2) :
    Reads (openBrace :: (joined ((members.map memberPart).map Prod.fst) ++ [closeBrace]))
      (((members.map memberPart).mapM Prod.snd).map .object) := by
  intro fuel rest hfuel hrest
  obtain ⟨hcount, hlengths⟩ := length_le_joined (members.map memberPart)
  simp only [List.length_cons, List.length_append, List.length_nil] at hfuel
  obtain ⟨fuel, rfl⟩ : ∃ k, fuel = k + 1 := ⟨fuel - 1, by omega⟩
  have hitems : ∀ part ∈ members.map memberPart, ∀ rest, Delimited rest →
      member (value fuel) (part.1 ++ rest) = part.2.map (·, rest) := by
    intro part hpart rest hrest
    have hlength := hlengths part hpart
    obtain ⟨m, hm, rfl⟩ := List.mem_map.mp hpart
    have hraw : m.2.1.length ≤ (memberPart m).1.length := by
      simp only [memberPart, memberText, List.length_append]
      omega
    exact member_reads (hkeys m hm) (h m hm) (by omega) hrest
  have hopens : ∀ part ∈ members.map memberPart, Opens closeBrace part.1 := by
    intro part hpart
    obtain ⟨m, hm, rfl⟩ := List.mem_map.mp hpart
    exact ⟨quote, by simp [memberPart, memberText], by decide, by decide⟩
  rw [List.cons_append, List.append_assoc, value_object]
  rw [List.singleton_append, listed_joined hitems hopens (.inl rfl) (by omega)]
  cases (members.map memberPart).mapM Prod.snd with
  | none => rfl
  | some items => simp [skipBlanks_of_delimited hrest]

end

/-! ### Numerals -/

section

open Digits

variable {rest : Text}

theorem afterDigits_text {ds : List Digit} (hds : ds ≠ []) (h : NoDigit rest) :
    afterDigits (Digits.text ds ++ rest) = some rest := by
  unfold afterDigits
  rw [takeWhile_text h, dropWhile_text h, if_neg (by simpa using hds)]

theorem afterWhole_text {ds : List Digit} (hds : ds ≠ []) (hunpadded : ds.head? = some 0 → ds.length = 1)
    (h : NoDigit rest) : afterWhole (Digits.text ds ++ rest) = some rest := by
  unfold afterWhole
  rw [takeWhile_text h, if_neg, afterDigits_text hds h]
  rintro ⟨hzero, hlength⟩
  unfold Digits.text at hzero hlength
  rw [List.head?_map, Option.map_eq_some_iff] at hzero
  obtain ⟨d, hd, hunit⟩ := hzero
  have hzero : d = 0 := by
    rw [← ofUnit_unit d, hunit]
    rfl
  rw [List.length_map] at hlength
  exact hlength (hunpadded (hzero ▸ hd))

theorem noDigit_exponentText (exponent : Option (Bool × List Digit)) :
    NoDigit (Numeral.exponentText exponent) ∧
      (Numeral.exponentText exponent).head? ≠ some point := by
  cases exponent with
  | none => exact ⟨by simp [Numeral.exponentText, NoDigit], by simp [Numeral.exponentText]⟩
  | some power =>
      refine ⟨fun u hu => ?_, fun h => absurd (Option.some.inj h) (by decide)⟩
      obtain rfl := Option.some.inj hu
      decide

theorem noDigit_fractionText (fraction : List Digit) (h : NoDigit rest) :
    NoDigit (Numeral.fractionText fraction ++ rest) := by
  unfold Numeral.fractionText
  split_ifs
  · exact h
  · intro u hu
    obtain rfl := Option.some.inj hu
    decide

theorem afterFraction_text (fraction : List Digit) (h : NoDigit rest)
    (hpoint : rest.head? ≠ some point) :
    afterFraction (Numeral.fractionText fraction ++ rest) = some rest := by
  unfold afterFraction Numeral.fractionText
  split_ifs with hnil hhead hhead
  · exact absurd hhead hpoint
  · rfl
  · exact afterDigits_text hnil h
  · exact absurd rfl hhead

theorem afterExponent_text {exponent : Option (Bool × List Digit)}
    (h : ∀ power ∈ exponent, power.2 ≠ []) :
    afterExponent (Numeral.exponentText exponent) = some [] := by
  cases exponent with
  | none => rfl
  | some power =>
      obtain ⟨negative, ds⟩ := power
      have hds : afterDigits (Digits.text ds ++ []) = some [] :=
        afterDigits_text (h _ rfl) (by simp [NoDigit])
      rw [List.append_nil] at hds
      cases negative <;> simpa [afterExponent, Numeral.exponentText] using hds

theorem isNumber_text (numeral : Numeral) : IsNumber numeral.text := by
  obtain ⟨negative, whole, fraction, exponent, hwhole, hunpadded, hexponent⟩ := numeral
  obtain ⟨hdigit, hpoint⟩ := noDigit_exponentText exponent
  have hunsigned : (((afterWhole (Digits.text whole ++ (Numeral.fractionText fraction ++
      Numeral.exponentText exponent))).bind afterFraction).bind afterExponent) = some [] := by
    rw [afterWhole_text hwhole hunpadded (noDigit_fractionText fraction hdigit), Option.bind_some,
      afterFraction_text fraction hdigit hpoint, Option.bind_some, afterExponent_text hexponent]
  unfold IsNumber Numeral.text Numeral.signText
  rw [decide_eq_true_iff]
  cases negative with
  | true => simpa using hunsigned
  | false =>
      obtain ⟨d, others, rfl⟩ := List.exists_cons_of_ne_nil hwhole
      have hminus : unit d ≠ minus := fun h => absurd (isDigit_unit d) (by rw [h]; decide)
      simpa [Digits.text, hminus] using hunsigned

theorem isNumeric_of_mem_text {numeral : Numeral} {u : UInt16} (h : u ∈ numeral.text) :
    IsNumeric u := by
  have hdigits {ds : List Digit} (hu : u ∈ Digits.text ds) : IsNumeric u := by
    simp [IsNumeric, isDigit_of_mem_text hu]
  unfold Numeral.text at h
  simp only [List.mem_append] at h
  rcases h with ((hsign | hwhole) | hfraction) | hexponent
  · unfold Numeral.signText at hsign
    split_ifs at hsign
    · rw [List.mem_singleton.mp hsign]
      decide
    · cases hsign
  · exact hdigits hwhole
  · unfold Numeral.fractionText at hfraction
    split_ifs at hfraction
    · cases hfraction
    · rcases List.mem_cons.mp hfraction with rfl | hfraction
      · decide
      · exact hdigits hfraction
  · cases hpower : numeral.exponent with
    | none => simp [hpower, Numeral.exponentText] at hexponent
    | some power =>
        obtain ⟨negative, ds⟩ := power
        rw [hpower, Numeral.exponentText, List.mem_cons, List.mem_cons] at hexponent
        rcases hexponent with rfl | rfl | hexponent
        · decide
        · cases negative <;> decide
        · exact hdigits hexponent

/-- A numeral is read as the number it is the text of. -/
theorem reads_numeral (numeral : Numeral) : Reads numeral.text (some (.number numeral.text)) := by
  intro fuel rest hfuel hrest
  obtain ⟨fuel, rfl⟩ : ∃ k, fuel = k + 1 := ⟨fuel - 1, by omega⟩
  have hall : ∀ u ∈ numeral.text, IsNumeric u := fun u => isNumeric_of_mem_text
  have htake : (numeral.text ++ rest).takeWhile IsNumeric = numeral.text ∧
      (numeral.text ++ rest).dropWhile IsNumeric = rest := by
    obtain ⟨htake, hdrop⟩ := takeWhile_numeric_append (t := numeral.text) fun _ => hrest
    rw [htake, hdrop, List.takeWhile_eq_self_iff.mpr hall, List.dropWhile_eq_nil_iff.mpr hall]
    exact ⟨rfl, rfl⟩
  have hne : numeral.text ≠ [] := by
    simp [Numeral.text, numeral.whole_ne_nil]
  obtain ⟨u, t, htext⟩ := List.exists_cons_of_ne_nil hne
  have hu : IsNumeric u := hall u (by simp [htext])
  have hoff {v : UInt16} (hv : IsNumeric v = false) : u ≠ v := by
    rintro rfl
    simp [hv] at hu
  have htoken : scalar u (numeral.text ++ rest) = some (.number numeral.text, rest) := by
    unfold scalar numberToken
    rw [if_neg (hoff (by decide)), if_neg (hoff (by decide)), if_neg (hoff (by decide)), htake.1,
      htake.2, if_pos (isNumber_text numeral)]
  have hblank : IsBlank u = false := by
    simp [IsBlank, hoff (v := 0x20) (by decide), hoff (v := 0x09) (by decide),
      hoff (v := 0x0A) (by decide), hoff (v := 0x0D) (by decide)]
  rw [value, htext, List.cons_append, skipBlanks_cons hblank]
  dsimp only
  rw [if_neg (hoff (by decide)), if_neg (hoff (by decide)), if_neg (hoff (by decide)),
    ← List.cons_append, ← htext, htoken, htext]
  simp [skipBlanks_of_delimited hrest]

end

end Json
