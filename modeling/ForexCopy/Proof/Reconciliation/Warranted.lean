import ForexCopy.Library.Grouping
import ForexCopy.Proof.Reconciliation.Clean

/-!
# What the engine reports

Apart from the stops, each finding is reported exactly when it is warranted, and exactly once. What is
warranted is said of the readings as multisets, so the order in which a query returns them has no part
in it.
-/

namespace ForexCopy

/-- What is compared, in no order. -/
structure Readings where
  masterPositions : Multiset MasterPositionInfo
  openCopies : Multiset OpenCopyInfo
  closedCopies : Multiset ClosedCopyInfo
  slavePositions : Multiset SlavePositionInfo
  volumeTolerated : ℚ

def CompareStateInput.readings (input : CompareStateInput) : Readings where
  masterPositions := input.masterPositions
  openCopies := input.openCopies
  closedCopies := input.closedCopies
  slavePositions := input.slavePositions
  volumeTolerated := input.volumeTolerated

/-- The position has the ticket of a copy. The empty ticket is none. -/
def SlavePositionInfo.Holds (position : SlavePositionInfo) (slaveTicket : Option String) : Prop :=
  slaveTicket = some position.ticket ∧ position.ticket ≠ ""

instance (position : SlavePositionInfo) (slaveTicket : Option String) :
    Decidable (position.Holds slaveTicket) :=
  inferInstanceAs (Decidable (_ ∧ _))

/-- The position's comment names the copy. -/
def SlavePositionInfo.Names (position : SlavePositionInfo) (copy : OpenCopyInfo) : Prop :=
  extractCopyId position.comment = some copy.copyId

instance (position : SlavePositionInfo) (copy : OpenCopyInfo) : Decidable (position.Names copy) :=
  inferInstanceAs (Decidable (_ = _))

namespace Readings

/-- A position has the ticket. -/
def Present (readings : Readings) (slaveTicket : Option String) : Prop :=
  ∃ position ∈ readings.slavePositions, position.Holds slaveTicket

instance (readings : Readings) (slaveTicket : Option String) : Decidable (readings.Present slaveTicket) :=
  Multiset.decidableExistsMultiset

/-- The positions that name the copy that `position` names. -/
def group (readings : Readings) (position : SlavePositionInfo) : Multiset SlavePositionInfo :=
  readings.slavePositions.filter fun other => extractCopyId other.comment = extractCopyId position.comment

/-- The position names an open copy. -/
def Expected (readings : Readings) (position : SlavePositionInfo) : Prop :=
  ∃ copy ∈ readings.openCopies, position.Names copy

instance (readings : Readings) (position : SlavePositionInfo) : Decidable (readings.Expected position) :=
  Multiset.decidableExistsMultiset

/-- Another position names the same copy. -/
def Doubled (readings : Readings) (position : SlavePositionInfo) : Prop :=
  ∃ other ∈ readings.group position, other.ticket ≠ position.ticket

instance (readings : Readings) (position : SlavePositionInfo) : Decidable (readings.Doubled position) :=
  Multiset.decidableExistsMultiset

/-- For each position of the master that no copy is of. -/
def missingCopies (readings : Readings) : Multiset Finding :=
  (readings.masterPositions.filter fun position =>
    (∀ copy ∈ readings.openCopies, copy.masterTicket ≠ position.ticket) ∧
      ∀ copy ∈ readings.closedCopies, copy.masterTicket ≠ position.ticket).map fun position =>
    { type := .missingCopy
      masterTicket := some position.ticket
      details := .missing position.symbol position.volume }

/-- For each open copy with a ticket that no position has. -/
def missingPositions (readings : Readings) : Multiset Finding :=
  (readings.openCopies.filter fun copy : OpenCopyInfo =>
    (truthy copy.slaveTicket).isSome ∧ ¬readings.Present copy.slaveTicket).map fun copy =>
    { type := .slavePositionMissing
      masterTicket := some copy.masterTicket
      slaveTicket := copy.slaveTicket }

/-- For each open copy and the position that has its ticket, when the volume is off. -/
def volumeMismatches (readings : Readings) : Multiset Finding :=
  readings.openCopies.bind fun copy =>
    (readings.slavePositions.filter fun position => position.Holds copy.slaveTicket ∧
      ∃ requestedVolume ∈ copy.requestedVolume,
        readings.volumeTolerated < |Arithmetic.double.sub position.volume requestedVolume|).map fun position =>
      { type := .volumeMismatch
        masterTicket := some copy.masterTicket
        slaveTicket := copy.slaveTicket
        details := .volumes (copy.requestedVolume.getD 0) position.volume }

/-- For each closed copy whose ticket a position has. -/
def notClosed (readings : Readings) : Multiset Finding :=
  (readings.closedCopies.filter fun copy : ClosedCopyInfo => readings.Present copy.slaveTicket).map
    fun copy =>
    { type := .slaveNotClosed
      masterTicket := some copy.masterTicket
      slaveTicket := copy.slaveTicket }

/-- For each position that names no open copy. -/
def unexpectedPositions (readings : Readings) : Multiset Finding :=
  (readings.slavePositions.filter fun position => ¬readings.Expected position).map fun position =>
    { type := .unexpectedSlavePosition
      slaveTicket := some position.ticket
      details := .unexpected position.symbol position.volume position.comment }

/-- For each position that names an open copy which another one names too. -/
def duplicatePositions (readings : Readings) : Multiset Finding :=
  (readings.slavePositions.filter fun position =>
    readings.Expected position ∧ readings.Doubled position).map fun position =>
    { type := .duplicateSlavePosition
      slaveTicket := some position.ticket
      details := .duplicate ((extractCopyId position.comment).getD "") (readings.group position).card }

def warranted (readings : Readings) : Multiset Finding :=
  readings.missingCopies + (readings.missingPositions + readings.volumeMismatches) + readings.notClosed +
    readings.unexpectedPositions + readings.duplicatePositions

end Readings

/-- What is reported, apart from the stops, in no order. -/
def reported (input : CompareStateInput) : Multiset Finding :=
  ((compareState input).filter fun finding => finding.type ≠ .sltpMismatch :)

namespace CompareStateInput

variable {input : CompareStateInput}

/-! ### Passes as multisets -/

theorem coe_ite {p q : Prop} [Decidable p] [Decidable q] (h : p ↔ q) (finding : Finding) :
    ((if p then [finding] else [] : List Finding) : Multiset Finding) = if q then {finding} else 0 := by
  by_cases hp : p
  · rw [if_pos hp, if_pos (h.mp hp), Multiset.coe_singleton]
  · rw [if_neg hp, if_neg (hp ∘ h.mpr), Multiset.coe_nil]

/-- A pass in which nothing is about stops. -/
theorem filter_pass {α : Type*} {entries : List α} {f : α → List Finding}
    (h : ∀ entry ∈ entries, ∀ finding ∈ f entry, finding.type ≠ .sltpMismatch) :
    (((entries.flatMap f).filter fun finding => finding.type ≠ .sltpMismatch : List Finding) :
      Multiset Finding) = (entries : Multiset α).bind fun entry => (f entry : Multiset Finding) := by
  rw [List.filter_eq_self.mpr, Multiset.coe_bind]
  intro finding hfinding
  obtain ⟨entry, hentry, hmem⟩ := List.mem_flatMap.mp hfinding
  exact decide_eq_true (h entry hentry finding hmem)

theorem present_iff {slaveTicket : Option String} : input.readings.Present slaveTicket ↔
    ∃ ticket, truthy slaveTicket = some ticket ∧ (input.slavePosition ticket).isSome := by
  have hfound : ∀ ticket, (input.slavePosition ticket).isSome ↔
      ∃ position ∈ input.slavePositions, position.ticket = ticket := by
    intro ticket
    rw [← not_iff_not, Bool.not_eq_true, Option.isSome_eq_false_iff, slavePosition, mapGet_isNone_iff]
    push Not
    rfl
  simp only [hfound, truthy_eq_some]
  constructor
  · rintro ⟨position, hmem, rfl, hne⟩
    exact ⟨_, ⟨rfl, hne⟩, position, hmem, rfl⟩
  · rintro ⟨_, ⟨rfl, hne⟩, position, hmem, rfl⟩
    exact ⟨position, hmem, rfl, hne⟩

theorem reported_missingCopies :
    ((input.masterPositions.flatMap input.missingCopies).filter fun finding =>
      finding.type ≠ .sltpMismatch : List Finding) = input.readings.missingCopies := by
  rw [filter_pass]
  · rw [Readings.missingCopies, ← Grouping.bind_ite]
    refine Multiset.bind_congr fun position _ => coe_ite ?_ _
    rw [mapGet_isNone_iff, mapGet_isNone_iff]
    rfl
  · intro position _ finding hmem
    unfold CompareStateInput.missingCopies at hmem
    split_ifs at hmem <;> simp_all

theorem reported_closedFindings :
    ((input.closedCopies.flatMap input.closedFindings).filter fun finding =>
      finding.type ≠ .sltpMismatch : List Finding) = input.readings.notClosed := by
  rw [filter_pass]
  · rw [Readings.notClosed, ← Grouping.bind_ite]
    refine Multiset.bind_congr fun copy _ => ?_
    unfold closedFindings
    cases hticket : truthy copy.slaveTicket with
    | none => rw [if_neg (by simp [present_iff, hticket]), Multiset.coe_nil]
    | some ticket =>
        rw [(truthy_eq_some.mp hticket).1]
        refine coe_ite ?_ _
        rw [present_iff, ← (truthy_eq_some.mp hticket).1, hticket]
        simp
  · intro copy _ finding hmem
    unfold CompareStateInput.closedFindings at hmem
    split at hmem <;> [skip; split_ifs at hmem] <;> simp_all

theorem namedCopy_eq_none_iff {position : SlavePositionInfo} :
    input.namedCopy position = none ↔ ¬input.readings.Expected position := by
  unfold namedCopy Readings.Expected SlavePositionInfo.Names
  rw [Option.filter_eq_none_iff]
  simp only [decide_eq_true_eq, List.mem_map, not_exists, not_and]
  constructor
  · exact fun h copy hcopy hname => h _ hname copy hcopy rfl
  · rintro h _ hname copy hcopy rfl
    exact h copy hcopy hname

theorem reported_unexpectedPositions :
    ((input.slavePositions.flatMap input.unexpectedPositions).filter fun finding =>
      finding.type ≠ .sltpMismatch : List Finding) = input.readings.unexpectedPositions := by
  rw [filter_pass]
  · rw [Readings.unexpectedPositions, ← Grouping.bind_ite]
    refine Multiset.bind_congr fun position _ => ?_
    unfold CompareStateInput.unexpectedPositions
    cases hname : input.namedCopy position with
    | none => rw [if_pos (namedCopy_eq_none_iff.mp hname), Multiset.coe_singleton]
    | some copyId =>
        rw [if_neg fun h => by simp [namedCopy_eq_none_iff.mpr h] at hname, Multiset.coe_nil]
  · intro position _ finding hmem
    unfold CompareStateInput.unexpectedPositions at hmem
    split at hmem <;> simp_all

/-! ### The open copies -/

/-- One position at most has a ticket. -/
theorem filter_holds (hunique : (input.slavePositions.map SlavePositionInfo.ticket).Nodup)
    {slaveTicket : Option String} {position : SlavePositionInfo}
    (hmem : position ∈ input.slavePositions) (hholds : position.Holds slaveTicket)
    (p : SlavePositionInfo → Prop) [DecidablePred p] :
    (input.readings.slavePositions.filter fun other => other.Holds slaveTicket ∧ p other) =
      if p position then {position} else 0 := by
  obtain ⟨rfl, hne⟩ := hholds
  have hsame : ∀ other : SlavePositionInfo, other.Holds (some position.ticket) ↔
      other.ticket = position.ticket := by
    intro other
    refine ⟨fun h => (Option.some.inj h.1).symm, fun h => ⟨congrArg some h.symm, h ▸ hne⟩⟩
  have hlist : (input.slavePositions.filter fun other => other.ticket = position.ticket ∧ p other) =
      if p position then [position] else [] := by
    simp only [Bool.decide_and]
    rw [← List.filter_filter, List.filter_comm, Table.filter_eq_singleton hunique hmem]
    by_cases h : p position <;> simp [h]
  simp only [hsame]
  change ((input.slavePositions.filter fun other => other.ticket = position.ticket ∧ p other : List _) :
    Multiset SlavePositionInfo) = _
  rw [hlist]
  split_ifs <;> rfl

/-- What is found at a position, apart from its stops. -/
theorem filter_position (copy : OpenCopyInfo) (position : SlavePositionInfo) :
    (((input.volumeMismatches copy position ++ input.sltpMismatches copy position).filter fun finding =>
      finding.type ≠ .sltpMismatch : List Finding) : Multiset Finding) =
      (if ∃ requestedVolume ∈ copy.requestedVolume,
          input.volumeTolerated < |Arithmetic.double.sub position.volume requestedVolume| then {position}
        else 0 : Multiset SlavePositionInfo).map fun position =>
          { type := .volumeMismatch
            masterTicket := some copy.masterTicket
            slaveTicket := copy.slaveTicket
            details := .volumes (copy.requestedVolume.getD 0) position.volume } := by
  have hstops : (input.sltpMismatches copy position).filter
      (fun finding => finding.type ≠ .sltpMismatch) = [] := by
    refine List.filter_eq_nil_iff.mpr fun finding hmem => ?_
    unfold sltpMismatches at hmem
    split at hmem <;> [skip; split_ifs at hmem] <;> simp_all
  rw [List.filter_append, hstops, List.append_nil]
  unfold CompareStateInput.volumeMismatches
  cases copy.requestedVolume with
  | none => simp
  | some requestedVolume =>
      by_cases hoff : input.volumeTolerated < |Arithmetic.double.sub position.volume requestedVolume|
      · simp [hoff]
      · simp [hoff]

theorem reported_openFindings
    (hunique : (input.slavePositions.map SlavePositionInfo.ticket).Nodup) :
    ((input.openCopies.flatMap input.openFindings).filter fun finding =>
      finding.type ≠ .sltpMismatch : List Finding) =
        input.readings.missingPositions + input.readings.volumeMismatches := by
  rw [List.filter_flatMap, ← Multiset.coe_bind, Readings.missingPositions, ← Grouping.bind_ite,
    Readings.volumeMismatches, ← Multiset.bind_add]
  refine Multiset.bind_congr fun copy _ => ?_
  unfold openFindings
  have hnone : ¬input.readings.Present copy.slaveTicket → (input.readings.slavePositions.filter
      fun position => position.Holds copy.slaveTicket ∧ ∃ requestedVolume ∈ copy.requestedVolume,
        input.readings.volumeTolerated < |Arithmetic.double.sub position.volume requestedVolume|) = 0 := by
    intro habsent
    exact Multiset.filter_eq_nil.mpr fun position hmem h => habsent ⟨position, hmem, h.1⟩
  cases hticket : truthy copy.slaveTicket with
  | none =>
      have habsent : ¬input.readings.Present copy.slaveTicket := by simp [present_iff, hticket]
      rw [hnone habsent, if_neg (by simp), Multiset.map_zero, add_zero]
      rfl
  | some ticket =>
      obtain ⟨hslaveTicket, hne⟩ := truthy_eq_some.mp hticket
      cases hfound : input.slavePosition ticket with
      | none =>
          have habsent : ¬input.readings.Present copy.slaveTicket := by
            simp [present_iff, hticket, hfound]
          rw [hnone habsent, if_pos ⟨rfl, habsent⟩, Multiset.map_zero, add_zero, hslaveTicket]
          simp only [hfound]
          rfl
      | some position =>
          obtain ⟨hmem, hsame⟩ := mapGet_eq_some hfound
          have hholds : position.Holds copy.slaveTicket := by
            rw [hslaveTicket, ← hsame]
            exact ⟨rfl, hsame ▸ hne⟩
          rw [if_neg fun h => h.2 ⟨position, hmem, hholds⟩, zero_add,
            filter_holds hunique hmem hholds]
          simp only [hfound]
          exact filter_position copy position

/-! ### The positions of each copy -/

theorem one_lt_length_iff {positions : List SlavePositionInfo}
    (hunique : (positions.map SlavePositionInfo.ticket).Nodup) {position : SlavePositionInfo}
    (hmem : position ∈ positions) :
    1 < positions.length ↔ ∃ other ∈ positions, other.ticket ≠ position.ticket := by
  constructor
  · intro hlength
    by_contra hnone
    push Not at hnone
    have hall : positions.filter (fun other => other.ticket = position.ticket) = positions :=
      List.filter_eq_self.mpr fun other hother => decide_eq_true (hnone other hother)
    rw [Table.filter_eq_singleton hunique hmem] at hall
    rw [← hall] at hlength
    simp at hlength
  · rintro ⟨other, hother, hne⟩
    by_contra hlength
    have hone : positions.length = 1 :=
      le_antisymm (not_lt.mp hlength) (List.length_pos_of_mem hmem)
    obtain ⟨only, rfl⟩ := List.length_eq_one_iff.mp hone
    rw [List.mem_singleton] at hmem hother
    exact hne (by rw [hmem, hother])

theorem namedCopy_eq_some_iff_of {position : SlavePositionInfo} {copyId : String}
    (hname : input.namedCopy position = some copyId) (other : SlavePositionInfo) :
    input.namedCopy other = some copyId ↔
      extractCopyId other.comment = extractCopyId position.comment := by
  obtain ⟨hcomment, hmem⟩ := Option.filter_eq_some_iff.mp hname
  unfold namedCopy
  rw [Option.filter_eq_some_iff, hcomment]
  exact ⟨fun h => h.1, fun h => ⟨h, hmem⟩⟩

/-- The findings of one group, position by position. -/
theorem coe_duplicatePositions (copyId : String) (positions : List SlavePositionInfo) :
    (CompareStateInput.duplicatePositions copyId positions : Multiset Finding) =
      (positions : Multiset SlavePositionInfo).bind fun position =>
        if 1 < positions.length then
          {{ type := .duplicateSlavePosition
             slaveTicket := some position.ticket
             details := .duplicate copyId positions.length }}
        else 0 := by
  unfold CompareStateInput.duplicatePositions
  by_cases hlength : positions.length ≤ 1
  · simp [hlength, not_lt.mpr hlength]
  · simp only [if_neg hlength, if_pos (not_le.mp hlength), Multiset.bind_singleton, Multiset.map_coe]

/-- The finding of a position that names the copy, when its group has others. -/
def doubled (input : CompareStateInput) (copyId : String) (position : SlavePositionInfo) :
    Multiset Finding :=
  let positions := input.slavePositions.filter fun other => input.namedCopy other = some copyId
  if 1 < positions.length then
    {{ type := .duplicateSlavePosition
       slaveTicket := some position.ticket
       details := .duplicate copyId positions.length }}
  else 0

/-- The groups of the loop hold each position that names an open copy, once. -/
theorem bind_positionsByCopyId :
    ((input.positionsByCopyId : Multiset (String × List SlavePositionInfo)).bind fun group =>
      (CompareStateInput.duplicatePositions group.1 group.2 : Multiset Finding)) =
      (input.slavePositions : Multiset SlavePositionInfo).bind fun position =>
        (input.namedCopy position).elim 0 fun copyId => input.doubled copyId position := by
  have hkeys : ((input.positionsByCopyId.map Prod.fst : List String) : Multiset String).Nodup :=
    Multiset.coe_nodup.mpr input.positionsByCopyId_spec.1
  have hnames : ∀ position ∈ (input.slavePositions : Multiset SlavePositionInfo),
      ∀ copyId ∈ input.namedCopy position,
        copyId ∈ ((input.positionsByCopyId.map Prod.fst : List String) : Multiset String) := by
    intro position hmem copyId hname
    have hgroup : position ∈
        input.slavePositions.filter fun other => input.namedCopy other = some copyId :=
      List.mem_filter.mpr ⟨hmem, decide_eq_true hname⟩
    obtain ⟨positions, hentry⟩ := exists_mem_positionsByCopyId (List.ne_nil_of_mem hgroup)
    exact Multiset.mem_coe.mpr (List.mem_map_of_mem hentry)
  rw [← Grouping.bind_groups hkeys input.namedCopy hnames input.doubled, ← Multiset.map_coe,
    Multiset.bind_map]
  refine Multiset.bind_congr fun group hgroup => ?_
  rw [coe_duplicatePositions, mem_positionsByCopyId (Multiset.mem_coe.mp hgroup)]
  rfl

theorem reported_duplicatePositions
    (hunique : (input.slavePositions.map SlavePositionInfo.ticket).Nodup) :
    ((input.positionsByCopyId.flatMap fun (copyId, positions) =>
      CompareStateInput.duplicatePositions copyId positions).filter fun finding =>
        finding.type ≠ .sltpMismatch : List Finding) = input.readings.duplicatePositions := by
  rw [filter_pass]
  · refine bind_positionsByCopyId.trans ?_
    rw [Readings.duplicatePositions, ← Grouping.bind_ite]
    refine Multiset.bind_congr fun position hmem => ?_
    cases hname : input.namedCopy position with
    | none =>
        rw [if_neg fun h => namedCopy_eq_none_iff.mp hname h.1]
        rfl
    | some copyId =>
        obtain ⟨hcomment, -⟩ := Option.filter_eq_some_iff.mp hname
        have hgroup : input.readings.group position = ((input.slavePositions.filter fun other =>
            input.namedCopy other = some copyId : List _) : Multiset SlavePositionInfo) := by
          simp only [namedCopy_eq_some_iff_of hname]
          rfl
        have hexpected : input.readings.Expected position := by
          by_contra hnot
          simp [namedCopy_eq_none_iff.mpr hnot] at hname
        have hdoubled : input.readings.Doubled position ↔ 1 < (input.slavePositions.filter fun other =>
            input.namedCopy other = some copyId).length := by
          rw [one_lt_length_iff (hunique.sublist (List.filter_sublist.map _))
            (List.mem_filter.mpr ⟨hmem, decide_eq_true hname⟩)]
          unfold Readings.Doubled
          rw [hgroup]
          rfl
        simp only [Option.elim_some, doubled, hexpected, hdoubled, true_and, hgroup, hcomment,
          Option.getD_some, Multiset.coe_card]
  · rintro ⟨copyId, positions⟩ _ finding hmem
    dsimp only [CompareStateInput.duplicatePositions] at hmem
    split_ifs at hmem
    · simp at hmem
    · obtain ⟨position, -, rfl⟩ := List.mem_map.mp hmem
      simp

end CompareStateInput

open CompareStateInput

/-- Apart from the stops, exactly the findings that are warranted are reported, each once; the order
of the lists has no part in it. -/
theorem compareState_warranted (input : CompareStateInput)
    (hunique : (input.slavePositions.map SlavePositionInfo.ticket).Nodup) :
    reported input = input.readings.warranted ∧
      ∀ masterPositions openCopies closedCopies slavePositions,
        masterPositions.Perm input.masterPositions → openCopies.Perm input.openCopies →
        closedCopies.Perm input.closedCopies → slavePositions.Perm input.slavePositions →
        reported { input with
          masterPositions := masterPositions
          openCopies := openCopies
          closedCopies := closedCopies
          slavePositions := slavePositions } = reported input := by
  have hreported : ∀ input : CompareStateInput,
      (input.slavePositions.map SlavePositionInfo.ticket).Nodup →
      reported input = input.readings.warranted := by
    intro input hunique
    unfold reported compareState Readings.warranted
    simp only [List.filter_append, ← Multiset.coe_add]
    rw [reported_missingCopies, reported_openFindings hunique, reported_closedFindings,
      reported_unexpectedPositions, reported_duplicatePositions hunique]
  refine ⟨hreported input hunique, ?_⟩
  intro masterPositions openCopies closedCopies slavePositions hmaster hopen hclosed hslave
  rw [hreported input hunique, hreported _ ((hslave.map _).nodup_iff.mpr hunique)]
  unfold readings
  rw [Multiset.coe_eq_coe.mpr hmaster, Multiset.coe_eq_coe.mpr hopen, Multiset.coe_eq_coe.mpr hclosed,
    Multiset.coe_eq_coe.mpr hslave]
  rfl

namespace Sample

/-- A position that was copied twice, with the closed copy of another still open. -/
def outOfSync : CompareStateInput :=
  { inSync with
    closedCopies := [{ masterTicket := "M0", slaveTicket := some "S0" }]
    slavePositions := [
      { ticket := "S2", symbol := "XAUUSDm", volume := 1, sl := some 3340, comment := some "copy:CP1" },
      { ticket := "S1", symbol := "XAUUSDm", volume := 1, sl := some 3340, comment := some "copy:CP1" },
      { ticket := "S0", symbol := "EURUSDm", volume := 2 }] }

/-- Copies and a position without tickets. -/
def emptyTickets : CompareStateInput :=
  { inSync with
    masterPositions := []
    openCopies := [
      { copyId := "CP1", masterTicket := "M1", slaveTicket := some "", requestedVolume := some 2 }]
    closedCopies := [{ masterTicket := "M0", slaveTicket := some "" }]
    slavePositions := [{ ticket := "", symbol := "XAUUSDm", volume := 1, comment := some "copy:CP1" }] }

end Sample

open Sample in
theorem outOfSync_warranted : reported outOfSync = outOfSync.readings.warranted ∧
    outOfSync.readings.warranted.card = 4 :=
  ⟨(compareState_warranted outOfSync (by decide +kernel)).1, by decide +kernel⟩

open Sample in
/-- A copy whose ticket is empty is passed over, even where a position has the empty ticket. -/
theorem empty_ticket_passed_over : compareState emptyTickets = [] ∧
    ∃ copy ∈ emptyTickets.closedCopies, ∃ position ∈ emptyTickets.slavePositions,
      copy.slaveTicket = some position.ticket := by
  decide +kernel

end ForexCopy
