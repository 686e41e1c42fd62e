import ForexCopy.Library.JsonRead
import ForexCopy.Wire.JsonBuilder

/-!
# What the builder writes is read back

Escaping goes through a string unit by unit, and what it does to a unit is undone by reading, but for
the units of control that it leaves as they are. So an object that is built from any calls is read as
their members in their order, or not at all; the positions of a heartbeat and the heartbeat are such
objects inside each other.
-/

namespace ForexCopy

open Utf16 Mql Json

/-! ### Strings -/

/-- No unit of control but those that are escaped or left out. -/
def Printable (value : Text) : Prop := ∀ u ∈ value, u < 0x20 → u = lineFeed ∨ u = carriageReturn

instance (value : Text) : Decidable (Printable value) :=
  List.decidableBAll (fun u => u < 0x20 → u = lineFeed ∨ u = carriageReturn) value

def withoutReturns (value : Text) : Text := value.filter (· ≠ carriageReturn)

namespace JsonBuilder

def escapeUnit (u : UInt16) : Text :=
  if u = backslash then [backslash, backslash]
  else if u = quote then [backslash, quote]
  else if u = lineFeed then [backslash, 0x6E]
  else if u = carriageReturn then []
  else [u]

/-- No replacement finds what another one has put in. -/
theorem escapeString_eq (value : Text) : escapeString value = value.flatMap escapeUnit := by
  unfold escapeString stringReplace
  simp only [Search.replace_singleton, List.flatMap_assoc]
  refine List.flatMap_congr fun u _ => ?_
  unfold escapeUnit
  split_ifs with hbackslash hquote hlineFeed hreturn
  · rfl
  · subst hquote
    rfl
  · subst hlineFeed
    rfl
  · subst hreturn
    rfl
  · simp [hquote, hlineFeed, hreturn]

theorem printable_cons {u : UInt16} {value : Text} : Printable (u :: value) ↔
    (u < 0x20 → u = lineFeed ∨ u = carriageReturn) ∧ Printable value := List.forall_mem_cons

/-- A unit that is escaped is read as itself, unless it is a carriage return. -/
theorem stringBody_escapeUnit {u : UInt16} (h : u < 0x20 → u = lineFeed ∨ u = carriageReturn)
    (t : Text) : stringBody (escapeUnit u ++ t) =
      (stringBody t).map (Prod.map (withoutReturns [u] ++ ·) id) := by
  unfold escapeUnit
  split_ifs with hbackslash hquote hlineFeed hreturn
  · subst hbackslash
    exact stringBody_escape (by decide) t
  · subst hquote
    exact stringBody_escape (by decide) t
  · subst hlineFeed
    exact stringBody_escape (by decide) t
  · subst hreturn
    have hid : (Prod.map (withoutReturns [carriageReturn] ++ ·) id : Text × Text → Text × Text) = id :=
      rfl
    rw [hid, Option.map_id]
    rfl
  · have hplain : Plain u := ⟨hquote, hbackslash, fun hlt => (h hlt).elim hlineFeed hreturn⟩
    rw [List.singleton_append, stringBody_plain hplain]
    simp [withoutReturns, hreturn]

theorem stringBody_control_unit {u : UInt16} (hlt : u < 0x20) (hlineFeed : u ≠ lineFeed)
    (hreturn : u ≠ carriageReturn) (t : Text) : stringBody (escapeUnit u ++ t) = none := by
  have hescape : escapeUnit u = [u] := by
    unfold escapeUnit
    split_ifs with hbackslash hquote
    · subst hbackslash
      exact absurd hlt (by decide)
    · subst hquote
      exact absurd hlt (by decide)
    · rfl
  rw [hescape]
  exact stringBody_control hlt t

/-- An escaped string is read as it was, or is refused at its first unit of control. -/
theorem stringBody_escapeString (value rest : Text) :
    stringBody (escapeString value ++ quote :: rest) =
      (if Printable value then some (withoutReturns value) else none).map (·, rest) := by
  rw [escapeString_eq]
  induction value with
  | nil => exact stringBody_quote rest
  | cons u value ih =>
      rw [List.flatMap_cons, List.append_assoc]
      by_cases hu : u < 0x20 → u = lineFeed ∨ u = carriageReturn
      · have hiff : Printable (u :: value) ↔ Printable value :=
          printable_cons.trans (and_iff_right hu)
        have hsplit : withoutReturns (u :: value) = withoutReturns [u] ++ withoutReturns value :=
          List.filter_append [u] value
        rw [stringBody_escapeUnit hu, ih, hsplit]
        simp only [hiff]
        split_ifs <;> rfl
      · push Not at hu
        obtain ⟨hlt, hlineFeed, hreturn⟩ := hu
        rw [stringBody_control_unit hlt hlineFeed hreturn, if_neg]
        · rfl
        · exact fun h => ((printable_cons.mp h).1 hlt).elim hlineFeed hreturn

end JsonBuilder

/-! ### Calls -/

namespace JsonCall

def key : JsonCall → Text
  | .addString key _ | .addNumber key _ _ | .addInteger key _ | .addBool key _ | .addRaw key _ => key

/-- The text of the value. -/
def raw : JsonCall → Text
  | .addString _ value => quote :: (JsonBuilder.escapeString value ++ [quote])
  | .addNumber _ value digits => doubleToString value digits
  | .addInteger _ value => integerToString value
  | .addBool _ value => if value then ofString "true" else ofString "false"
  | .addRaw _ rawJson => rawJson

/-- The value that is added: a string without its carriage returns, a number as it is printed. -/
def json : JsonCall → Json
  | .addString _ value => .string (withoutReturns value)
  | .addNumber _ value digits => .number (doubleToString value digits)
  | .addInteger _ value => .number (integerToString value)
  | .addBool _ value => .bool value
  | .addRaw _ rawJson => (parse rawJson).getD .null

def member (call : JsonCall) : Text × Json := (call.key, call.json)

def Prints : JsonCall → Prop
  | .addString _ value => Printable value
  | .addNumber _ _ _ | .addInteger _ _ | .addBool _ _ | .addRaw _ _ => True

instance : DecidablePred Prints := fun call => by
  cases call <;> (unfold Prints; infer_instance)

theorem apply_eq (builder : JsonBuilder) (call : JsonCall) :
    call.apply builder = builder.appendKeyRaw call.key call.raw := by
  cases call <;> rfl

/-- A literal that is added with `AddRaw`. -/
def ValidRaw : JsonCall → Prop
  | .addRaw _ rawJson => (parse rawJson).isSome
  | .addString _ _ | .addNumber _ _ _ | .addInteger _ _ | .addBool _ _ => True

theorem reads_bool (value : Bool) :
    Reads (if value then ofString "true" else ofString "false") (some (.bool value)) := by
  apply reads_of_parse
  cases value <;> rfl

theorem reads_of_prints {call : JsonCall} (hprints : call.Prints)
    (h : Reads call.raw (some call.json)) :
    Reads call.raw (if call.Prints then some call.json else none) := by
  rwa [if_pos hprints]

/-- What a call adds is read as its value, unless it is a string that does not print. -/
theorem reads {call : JsonCall} (h : call.ValidRaw) :
    Reads call.raw (if call.Prints then some call.json else none) := by
  cases call with
  | addString key value =>
      have hstring := Reads.string (JsonBuilder.stringBody_escapeString value)
      by_cases hprints : Printable value
      · rw [if_pos hprints] at hstring
        exact reads_of_prints hprints hstring
      · rw [if_neg hprints] at hstring
        rw [if_neg (show ¬Prints (.addString key value) from hprints)]
        exact hstring
  | addNumber key value digits => exact reads_of_prints trivial (reads_numeral _)
  | addInteger key value => exact reads_of_prints trivial (reads_numeral _)
  | addBool key value => exact reads_of_prints trivial (reads_bool value)
  | addRaw key rawJson =>
      obtain ⟨value, hvalue⟩ := Option.isSome_iff_exists.mp h
      have hjson : json (.addRaw key rawJson) = value := by simp [json, hvalue]
      exact reads_of_prints trivial (hjson.symm ▸ reads_of_parse hvalue)

end JsonCall

namespace JsonBuilder

theorem body_foldl (calls : List JsonCall) (builder : JsonBuilder) (hfirst : builder.first = false) :
    (calls.foldl JsonCall.apply builder).body =
      builder.body ++ calls.flatMap fun call => comma :: memberText call.key call.raw := by
  induction calls generalizing builder with
  | nil => simp
  | cons call calls ih =>
      rw [List.foldl_cons, JsonCall.apply_eq, ih _ rfl]
      simp [appendKeyRaw, hfirst, memberText]

theorem build_after (calls : List JsonCall) : (after calls).build =
    openBrace :: (joined (calls.map fun call => memberText call.key call.raw) ++ [closeBrace]) := by
  unfold build after
  cases calls with
  | nil => rfl
  | cons call calls =>
      rw [List.foldl_cons, JsonCall.apply_eq, body_foldl _ _ rfl, List.map_cons, joined_map_cons,
        List.flatMap_map]
      simp [appendKeyRaw, memberText]

/-- The values of the calls are read one by one. -/
theorem reads_after {calls : List JsonCall} (outcome : JsonCall → Option Json)
    (hkeys : ∀ call ∈ calls, ∀ u ∈ call.key, Plain u)
    (h : ∀ call ∈ calls, Reads call.raw (outcome call)) :
    Reads (after calls).build
      ((calls.mapM fun call => (outcome call).map fun json => (call.key, json)).map .object) := by
  let part (call : JsonCall) : Text × Text × Option Json := (call.key, call.raw, outcome call)
  have hplain : ∀ m ∈ calls.map part, ∀ u ∈ m.1, Plain u := by simpa [part] using hkeys
  have hparts : ∀ m ∈ calls.map part, Reads m.2.1 m.2.2 := by simpa [part] using h
  have hobject := Reads.object hplain hparts
  rw [build_after]
  simpa [part, memberPart, Function.comp_def] using hobject

/-- All that is added is read, or nothing is. -/
theorem mapM_guard {α β : Type} (p : α → Prop) [DecidablePred p] (f : α → β) (list : List α) :
    (list.mapM fun a => if p a then some (f a) else none) =
      if ∀ a ∈ list, p a then some (list.map f) else none := by
  induction list with
  | nil => simp
  | cons a list ih =>
      rw [List.mapM_cons, ih]
      by_cases ha : p a
      · simp only [ha, if_true, List.forall_mem_cons, true_and]
        split_ifs <;> rfl
      · simp [ha]

theorem reads_calls {calls : List JsonCall} (hkeys : ∀ call ∈ calls, ∀ u ∈ call.key, Plain u)
    (hraws : ∀ call ∈ calls, call.ValidRaw) :
    Reads (after calls).build
      (if ∀ call ∈ calls, call.Prints then some (.object (calls.map JsonCall.member)) else none) := by
  have hreads := reads_after (fun call => if call.Prints then some call.json else none) hkeys
    fun call hcall => JsonCall.reads (hraws call hcall)
  have hmember (call : JsonCall) :
      ((if call.Prints then some call.json else none).map fun json => (call.key, json)) =
        if call.Prints then some call.member else none := by
    split_ifs <;> rfl
  simp only [hmember, mapM_guard] at hreads
  split_ifs at hreads ⊢ <;> exact hreads

end JsonBuilder

theorem plain_of_identifier {name : Text} (h : IsIdentifier name) : ∀ u ∈ name, Plain u := by
  intro u hu
  have hunit := h.2 u hu
  refine ⟨?_, ?_, ?_⟩
  · rintro rfl
    exact absurd hunit (by decide)
  · rintro rfl
    exact absurd hunit (by decide)
  · intro hlt
    simp only [IsDigit, IsLetter, Bool.or_eq_true, Bool.and_eq_true, decide_eq_true_iff] at hunit
    grind

theorem not_control_of_numeric {u : UInt16} (h : IsNumeric u) : ¬u < 0x20 := by
  simp only [IsNumeric, IsDigit, Bool.or_eq_true, Bool.and_eq_true, decide_eq_true_iff] at h
  grind

/-! ### Positions -/

namespace Mt4

namespace PoolOrder

def calls (order : PoolOrder) : List JsonCall :=
  [.addString (ofString "ticket") (integerToString order.ticket),
    .addString (ofString "symbol") order.symbol,
    .addString (ofString "side") (if order.type = .buy then ofString "BUY" else ofString "SELL"),
    .addNumber (ofString "volume") order.lots 2] ++
  (if order.stopLoss > 0 then [.addNumber (ofString "sl") order.stopLoss 5] else []) ++
  (if order.takeProfit > 0 then [.addNumber (ofString "tp") order.takeProfit 5] else []) ++
  (if order.comment.length > 0 then [.addString (ofString "comment") order.comment] else [])

/-- The broker's texts print. -/
def Prints (order : PoolOrder) : Prop := Printable order.symbol ∧ Printable order.comment

instance : DecidablePred Prints := fun _ => inferInstanceAs (Decidable (_ ∧ _))

def json (order : PoolOrder) : Json := .object (order.calls.map JsonCall.member)

theorem positionBuilder_eq (order : PoolOrder) : positionBuilder order = .after order.calls := by
  unfold positionBuilder calls JsonBuilder.after
  split_ifs <;> rfl

theorem calls_keys (order : PoolOrder) : ∀ call ∈ order.calls, ∀ u ∈ call.key, Plain u := by
  have hkeys : ∀ call ∈ order.calls, call.key ∈ ["ticket", "symbol", "side", "volume", "sl", "tp",
      "comment"].map ofString := by
    unfold calls
    split_ifs <;> simp [JsonCall.key]
  have hplain : ∀ key ∈ ["ticket", "symbol", "side", "volume", "sl", "tp", "comment"].map ofString,
      IsIdentifier key := by
    decide +kernel
  exact fun call hcall => plain_of_identifier (hplain _ (hkeys call hcall))

theorem calls_valid (order : PoolOrder) : ∀ call ∈ order.calls, call.ValidRaw := by
  unfold calls
  split_ifs <;> simp [JsonCall.ValidRaw]

theorem printable_numeral (n : ℤ) : Printable (integerToString n) :=
  fun _ hu hlt => absurd hlt (not_control_of_numeric (isNumeric_of_mem_text hu))

/-- A position prints when the broker's texts do. -/
theorem calls_print (order : PoolOrder) :
    (∀ call ∈ order.calls, call.Prints) ↔ order.Prints := by
  constructor
  · intro h
    refine ⟨h (.addString (ofString "symbol") order.symbol) (by simp [calls]), ?_⟩
    by_cases hcomment : order.comment.length > 0
    · exact h (.addString (ofString "comment") order.comment) (by simp [calls, hcomment])
    · rw [List.length_eq_zero_iff.mp (Nat.eq_zero_of_not_pos hcomment)]
      exact List.forall_mem_nil _
  · rintro ⟨hsymbol, hcomment⟩
    have hside : Printable (if order.type = .buy then ofString "BUY" else ofString "SELL") := by
      split_ifs <;> decide +kernel
    intro call hcall
    simp only [calls, List.mem_append, List.mem_cons, List.not_mem_nil, or_false,
      List.mem_ite_nil_right] at hcall
    obtain (((rfl | rfl | rfl | rfl) | ⟨-, rfl⟩) | ⟨-, rfl⟩) | ⟨-, rfl⟩ := hcall
    · exact printable_numeral order.ticket
    · exact hsymbol
    · exact hside
    · exact trivial
    · exact trivial
    · exact trivial
    · exact hcomment

/-- A position is read as its members, or not at all. -/
theorem reads_position (order : PoolOrder) :
    Reads (positionBuilder order).build (if order.Prints then some order.json else none) := by
  have hreads := JsonBuilder.reads_calls order.calls_keys order.calls_valid
  rw [positionBuilder_eq]
  simpa only [calls_print, json] using hreads

end PoolOrder

/-! ### The array of the positions -/

/-- The orders that are positions. -/
def positions (orders : List PoolOrder) : List PoolOrder :=
  orders.filter fun order => order.type.IsMarket

theorem foldl_appendPosition (orders : List PoolOrder) (body : Text) :
    orders.foldl appendPosition (openBracket :: body) =
      openBracket :: (body ++ if body = [] then
          joined ((positions orders).map fun order => (positionBuilder order).build)
        else (positions orders).flatMap fun order => comma :: (positionBuilder order).build) := by
  induction orders generalizing body with
  | nil => simp [positions, joined]
  | cons order orders ih =>
      rw [List.foldl_cons, appendPosition]
      by_cases hmarket : order.type.IsMarket
      · have hpositions : positions (order :: orders) = order :: positions orders := by
          simp [positions, hmarket]
        have hbuild : (positionBuilder order).build ≠ [] := by simp [JsonBuilder.build]
        rw [if_pos hmarket, hpositions]
        by_cases hbody : body = []
        · subst hbody
          rw [if_neg (by simp), List.singleton_append, ih, if_neg hbuild, if_pos rfl, List.map_cons,
            joined_map_cons, List.flatMap_map]
          rfl
        · rw [if_pos (by simpa using hbody), List.append_assoc, List.cons_append, ih,
            if_neg (by simp), if_neg hbody]
          simp
      · have hpositions : positions (order :: orders) = positions orders := by
          simp [positions, hmarket]
        rw [if_neg hmarket, ih, hpositions]

theorem buildPositionsJson_eq (orders : List PoolOrder) : buildPositionsJson orders =
    openBracket :: (joined ((positions orders).map fun order => (positionBuilder order).build) ++
      [closeBracket]) := by
  unfold buildPositionsJson
  rw [foldl_appendPosition, if_pos rfl]
  rfl

/-- The positions are read as an array of theirs when the texts of all of them print. -/
theorem reads_positions (orders : List PoolOrder) :
    Reads (buildPositionsJson orders)
      (if ∀ order ∈ positions orders, order.Prints then
        some (.array ((positions orders).map PoolOrder.json)) else none) := by
  let part (order : PoolOrder) : Text × Option Json :=
    ((positionBuilder order).build, if order.Prints then some order.json else none)
  have hreads : ∀ p ∈ (positions orders).map part, Reads p.1 p.2 := by
    intro p hp
    obtain ⟨order, -, rfl⟩ := List.mem_map.mp hp
    exact order.reads_position
  have hopens : ∀ p ∈ (positions orders).map part, Opens closeBracket p.1 := by
    intro p hp
    obtain ⟨order, -, rfl⟩ := List.mem_map.mp hp
    exact ⟨openBrace, by simp [part, JsonBuilder.build], by decide, by decide⟩
  have harray := Reads.array hreads hopens
  rw [List.map_map, List.mapM_map] at harray
  rw [buildPositionsJson_eq]
  have hguard := JsonBuilder.mapM_guard PoolOrder.Prints PoolOrder.json (positions orders)
  have houtcome : (positions orders).mapM (Prod.snd ∘ part) =
      if ∀ order ∈ positions orders, order.Prints then
        some ((positions orders).map PoolOrder.json) else none := hguard
  rw [houtcome] at harray
  split_ifs at harray ⊢ <;> exact harray

/-! ### The heartbeat -/

def heartbeatCalls (accountBalance accountEquity : ℚ) (orders : List PoolOrder) : List JsonCall :=
  [.addNumber (ofString "balance") accountBalance 2, .addNumber (ofString "equity") accountEquity 2,
    .addRaw (ofString "positions") (buildPositionsJson orders)]

/-- The heartbeat that is meant. -/
def heartbeatJson (accountBalance accountEquity : ℚ) (orders : List PoolOrder) : Json :=
  .object [(ofString "balance", .number (doubleToString accountBalance 2)),
    (ofString "equity", .number (doubleToString accountEquity 2)),
    (ofString "positions", .array ((positions orders).map PoolOrder.json))]

theorem reads_heartbeat (accountBalance accountEquity : ℚ) (orders : List PoolOrder) :
    Reads (sendHeartbeatNow accountBalance accountEquity orders)
      (if ∀ order ∈ positions orders, order.Prints then
        some (heartbeatJson accountBalance accountEquity orders) else none) := by
  let outcome (call : JsonCall) : Option Json :=
    match call with
    | .addRaw _ _ =>
      if ∀ order ∈ positions orders, order.Prints then
        some (.array ((positions orders).map PoolOrder.json)) else none
    | _ => some call.json
  have hkeys : ∀ call ∈ heartbeatCalls accountBalance accountEquity orders, ∀ u ∈ call.key, Plain u := by
    have hplain : ∀ key ∈ ["balance", "equity", "positions"].map ofString, IsIdentifier key := by
      decide +kernel
    intro call hcall
    refine plain_of_identifier (hplain _ ?_)
    simp only [heartbeatCalls, List.mem_cons, List.not_mem_nil, or_false] at hcall
    rcases hcall with rfl | rfl | rfl <;> simp [JsonCall.key]
  have hreads := JsonBuilder.reads_after outcome hkeys (by
    simp only [heartbeatCalls, List.forall_mem_cons]
    exact ⟨reads_numeral _, reads_numeral _, reads_positions orders, List.forall_mem_nil _⟩)
  have houtcome : ((heartbeatCalls accountBalance accountEquity orders).mapM fun call =>
      (outcome call).map fun json => (call.key, json)).map Json.object =
        if ∀ order ∈ positions orders, order.Prints then
          some (heartbeatJson accountBalance accountEquity orders) else none := by
    simp only [heartbeatCalls, List.mapM_cons, List.mapM_nil, outcome]
    split_ifs <;> rfl
  rw [houtcome] at hreads
  exact hreads

end Mt4

/-- An object that is built from any calls, with a valid literal wherever one is added raw, is read as
what the calls add, in their order, exactly when the strings among them have no units of control but
line feeds and carriage returns. The array of the positions is such a literal, and is read as the
positions, exactly when the broker's texts are of this kind; and so is the heartbeat. -/
theorem JsonBuilder.round_trip :
    (∀ calls : List JsonCall, (∀ call ∈ calls, IsIdentifier call.key) →
      (∀ key rawJson, .addRaw key rawJson ∈ calls → (parse rawJson).isSome) →
      (parse (after calls).build = some (.object (calls.map JsonCall.member)) ↔
        ∀ key value, .addString key value ∈ calls → Printable value)) ∧
    (∀ orders, parse (Mt4.buildPositionsJson orders) =
        some (.array ((Mt4.positions orders).map Mt4.PoolOrder.json)) ↔
      ∀ order ∈ Mt4.positions orders, order.Prints) ∧
    ∀ accountBalance accountEquity orders,
      parse (Mt4.sendHeartbeatNow accountBalance accountEquity orders) =
          some (Mt4.heartbeatJson accountBalance accountEquity orders) ↔
        ∀ order ∈ Mt4.positions orders, order.Prints := by
  have hiff {p : Prop} [Decidable p] {t : Text} {json : Json}
      (h : Reads t (if p then some json else none)) : parse t = some json ↔ p := by
    rw [h.parse]
    split_ifs with hp <;> simp [hp]
  refine ⟨fun calls hkeys hraws => ?_, fun orders => hiff (Mt4.reads_positions orders),
    fun accountBalance accountEquity orders =>
      hiff (Mt4.reads_heartbeat accountBalance accountEquity orders)⟩
  have hvalid : ∀ call ∈ calls, call.ValidRaw := by
    intro call hcall
    cases call with
    | addRaw key rawJson => exact hraws key rawJson hcall
    | addString | addNumber | addInteger | addBool => trivial
  rw [hiff (reads_calls (fun call hcall => plain_of_identifier (hkeys call hcall)) hvalid)]
  constructor
  · intro h key value hmem
    exact h _ hmem
  · intro h call hcall
    cases call with
    | addString key value => exact h key value hcall
    | addNumber | addInteger | addBool | addRaw => trivial

namespace Sample

/-- A string with everything that is escaped, and a literal with items of its own. -/
def writes : List JsonCall :=
  [.addString (ofString "reason") (ofString "no \"EURUSD\"\r\nin C:\\MT4"),
    .addNumber (ofString "price") (108 / 100) 5, .addInteger (ofString "ticket") (-1),
    .addBool (ofString "filled") false, .addRaw (ofString "sl") (ofString "[null, 1.5]")]

end Sample

open Sample in
theorem JsonBuilder.writes_read_back :
    parse (after writes).build = some (.object (writes.map JsonCall.member)) := by
  refine (round_trip.1 writes (by decide +kernel) ?_).mpr ?_
  · intro key rawJson hmem
    simp only [writes, List.mem_cons, reduceCtorEq, false_or, JsonCall.addRaw.injEq,
      List.not_mem_nil, or_false] at hmem
    obtain ⟨-, rfl⟩ := hmem
    decide +kernel
  · intro key value hmem
    simp only [writes, List.mem_cons, reduceCtorEq, JsonCall.addString.injEq, List.not_mem_nil,
      or_false] at hmem
    obtain ⟨-, rfl⟩ := hmem
    decide +kernel

end ForexCopy
