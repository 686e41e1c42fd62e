import ForexCopy.Proof.Reconciliation.Clean

/-!
# Drift of the stops

A stop or a target that is not set is omitted, null or zero, depending on who tells of it. The engine
looks at a field only where one is expected, and takes an omitted one for missing. So it misses the stop
that should be gone, and finds one missing where zero is expected. Prices that are just about as far
apart as tolerated it may misjudge, since it subtracts doubles. The other field may make up for all this.
-/

namespace ForexCopy

/-- The price of a stop or a target, zero where none is set. -/
def stopPrice (stop : Option ℚ) : ℚ := stop.getD 0

/-- The prices are further apart than tolerated, whichever way no stop is told. -/
def Drifts (priceTolerance : ℚ) (expected actual : Option ℚ) : Prop :=
  priceTolerance < |stopPrice actual - stopPrice expected|

instance (priceTolerance : ℚ) (expected actual : Option ℚ) :
    Decidable (Drifts priceTolerance expected actual) :=
  inferInstanceAs (Decidable (_ < _))

/-- The difference of the doubles is on another side of the tolerance than that of the prices. -/
def Misjudged (priceTolerance price found : ℚ) : Prop :=
  ¬(priceTolerance < |Arithmetic.double.sub found price| ↔ priceTolerance < |found - price|)

instance (priceTolerance price found : ℚ) : Decidable (Misjudged priceTolerance price found) :=
  inferInstanceAs (Decidable (¬_))

/-- One that drifts, and none is expected, so the engine does not look at it, or it misjudges it. -/
def DriftsUnseen (priceTolerance : ℚ) (expected actual : Option ℚ) : Prop :=
  Drifts priceTolerance expected actual ∧
    ∀ price ∈ expected, ∃ found ∈ actual, Misjudged priceTolerance price found

/-- One that is expected and does not drift, but is omitted, which the engine takes for missing, or
misjudged. -/
def SeemsOff (priceTolerance : ℚ) (expected actual : Option ℚ) : Prop :=
  ¬Drifts priceTolerance expected actual ∧
    ∃ price ∈ expected, ∀ found ∈ actual, Misjudged priceTolerance price found

/-- One that the engine looks at and finds missing or elsewhere. -/
def FoundOff (priceTolerance : ℚ) (expected actual : Option ℚ) : Prop :=
  ∃ price ∈ expected, ∀ found ∈ actual, priceTolerance < |Arithmetic.double.sub found price|

/-- The position's stop or target drifts. -/
def StopsDrift (priceTolerance : ℚ) (expected : ExpectedSlTp) (position : SlavePositionInfo) : Prop :=
  Drifts priceTolerance expected.sl position.sl ∨ Drifts priceTolerance expected.tp position.tp

/-- What the engine does with one field it makes up for with the other. -/
structure MadeUpFor (priceTolerance : ℚ) (expected : ExpectedSlTp) (position : SlavePositionInfo) :
    Prop where
  unseenSl : DriftsUnseen priceTolerance expected.sl position.sl →
    FoundOff priceTolerance expected.tp position.tp
  unseenTp : DriftsUnseen priceTolerance expected.tp position.tp →
    FoundOff priceTolerance expected.sl position.sl
  offSl : SeemsOff priceTolerance expected.sl position.sl →
    Drifts priceTolerance expected.tp position.tp
  offTp : SeemsOff priceTolerance expected.tp position.tp →
    Drifts priceTolerance expected.sl position.sl

/-- A drift of the copy's stops is reported. -/
def ReportsDrift (input : CompareStateInput) (copy : OpenCopyInfo) : Prop :=
  ∃ finding ∈ compareState input, finding.type = .sltpMismatch ∧
    finding.masterTicket = some copy.masterTicket ∧ finding.slaveTicket = copy.slaveTicket

/-! ### One field -/

section

variable {priceTolerance : ℚ} {expected actual : Option ℚ}

theorem priceMismatch_iff :
    priceMismatch priceTolerance expected actual ↔ FoundOff priceTolerance expected actual := by
  unfold FoundOff
  cases expected <;> cases actual <;> simp [priceMismatch]

theorem FoundOff.drifts_or (h : FoundOff priceTolerance expected actual) :
    Drifts priceTolerance expected actual ∨ SeemsOff priceTolerance expected actual := by
  by_cases hdrifts : Drifts priceTolerance expected actual
  · exact .inl hdrifts
  · obtain ⟨price, hprice, hfound⟩ := h
    refine .inr ⟨hdrifts, price, hprice, fun found hmem hsame => ?_⟩
    obtain rfl := Option.mem_def.mp hprice
    obtain rfl := Option.mem_def.mp hmem
    exact hdrifts (hsame.mp (hfound found rfl))

theorem Drifts.foundOff_or (h : Drifts priceTolerance expected actual) :
    FoundOff priceTolerance expected actual ∨ DriftsUnseen priceTolerance expected actual := by
  by_cases hfound : FoundOff priceTolerance expected actual
  · exact .inl hfound
  · refine .inr ⟨h, fun price hprice => ?_⟩
    have hwithin : ∃ found ∈ actual, ¬priceTolerance < |Arithmetic.double.sub found price| := by
      by_contra hnone
      push Not at hnone
      exact hfound ⟨price, hprice, hnone⟩
    obtain ⟨found, hmem, hwithin⟩ := hwithin
    refine ⟨found, hmem, fun hsame => hwithin (hsame.mpr ?_)⟩
    obtain rfl := Option.mem_def.mp hprice
    obtain rfl := Option.mem_def.mp hmem
    exact h

theorem DriftsUnseen.not_foundOff (h : DriftsUnseen priceTolerance expected actual) :
    ¬FoundOff priceTolerance expected actual := by
  rintro ⟨price, hprice, hfound⟩
  obtain ⟨found, hmem, hmisjudged⟩ := h.2 price hprice
  obtain rfl := Option.mem_def.mp hprice
  obtain rfl := Option.mem_def.mp hmem
  exact hmisjudged ⟨fun _ => h.1, fun _ => hfound found rfl⟩

theorem SeemsOff.foundOff (h : SeemsOff priceTolerance expected actual) :
    FoundOff priceTolerance expected actual := by
  obtain ⟨hwithin, price, hprice, hmisjudged⟩ := h
  refine ⟨price, hprice, fun found hmem => ?_⟩
  obtain rfl := Option.mem_def.mp hprice
  obtain rfl := Option.mem_def.mp hmem
  by_contra hnot
  exact hmisjudged found rfl ⟨fun h => absurd h hnot, fun h => absurd h hwithin⟩

end

/-! ### Both fields -/

/-- The two fields together are found off exactly if one drifts, when each makes up for the other. -/
theorem found_iff_stopsDrift_iff {priceTolerance : ℚ} {expected : ExpectedSlTp}
    {position : SlavePositionInfo} :
    ((FoundOff priceTolerance expected.sl position.sl ∨ FoundOff priceTolerance expected.tp position.tp) ↔
      StopsDrift priceTolerance expected position) ↔ MadeUpFor priceTolerance expected position := by
  unfold StopsDrift
  constructor
  · intro h
    refine ⟨fun hunseen => ?_, fun hunseen => ?_, fun hoff => ?_, fun hoff => ?_⟩
    · exact (h.mpr (.inl hunseen.1)).resolve_left hunseen.not_foundOff
    · exact (h.mpr (.inr hunseen.1)).resolve_right hunseen.not_foundOff
    · exact (h.mp (.inl hoff.foundOff)).resolve_left hoff.1
    · exact (h.mp (.inr hoff.foundOff)).resolve_right hoff.1
  · intro h
    constructor
    · rintro (hfound | hfound)
      · exact hfound.drifts_or.imp_right h.offSl
      · exact (hfound.drifts_or.imp_right h.offTp).symm
    · rintro (hdrifts | hdrifts)
      · exact hdrifts.foundOff_or.imp_right h.unseenSl
      · exact (hdrifts.foundOff_or.imp_right h.unseenTp).symm

/-! ### What is reported of the stops -/

namespace CompareStateInput

variable {input : CompareStateInput} {finding : Finding}

def stopsFinding (copy : OpenCopyInfo) (expected : ExpectedSlTp) (position : SlavePositionInfo) :
    Finding where
  type := .sltpMismatch
  masterTicket := some copy.masterTicket
  slaveTicket := copy.slaveTicket
  details := .stops expected.sl expected.tp position.sl position.tp

theorem mem_sltpMismatches {copy : OpenCopyInfo} {position : SlavePositionInfo} :
    finding ∈ input.sltpMismatches copy position ↔
      ∃ expected ∈ input.expectedSlTpByMasterTicket copy.masterTicket,
        (FoundOff input.priceTolerated expected.sl position.sl ∨
          FoundOff input.priceTolerated expected.tp position.tp) ∧
        finding = stopsFinding copy expected position := by
  unfold sltpMismatches stopsFinding
  cases input.expectedSlTpByMasterTicket copy.masterTicket with
  | none => simp
  | some expected =>
      simp only [← priceMismatch_iff]
      split_ifs with hfound
      · simp [hfound]
      · simp [hfound]

/-- The passes that say nothing of stops. -/
theorem sltpMismatch_of_mem (hmem : finding ∈ compareState input) (htype : finding.type = .sltpMismatch) :
    ∃ copy ∈ input.openCopies, finding ∈ input.openFindings copy := by
  unfold compareState at hmem
  simp only [List.mem_append, List.mem_flatMap] at hmem
  rcases hmem with (((⟨position, -, h⟩ | hopen) | ⟨copy, -, h⟩) | ⟨position, -, h⟩) | ⟨group, -, h⟩
  · unfold missingCopies at h
    split_ifs at h <;> simp_all
  · exact hopen
  · unfold closedFindings at h
    split at h <;> [skip; split_ifs at h] <;> simp_all
  · unfold unexpectedPositions at h
    split at h <;> simp_all
  · unfold duplicatePositions at h
    split_ifs at h
    · simp at h
    · obtain ⟨position, -, rfl⟩ := List.mem_map.mp h
      cases htype

theorem mem_openFindings_stops {copy : OpenCopyInfo} (htype : finding.type = .sltpMismatch) :
    finding ∈ input.openFindings copy ↔ ∃ slaveTicket, truthy copy.slaveTicket = some slaveTicket ∧
      ∃ position, input.slavePosition slaveTicket = some position ∧
        finding ∈ input.sltpMismatches copy position := by
  have hvolume : ∀ position, finding ∉ input.volumeMismatches copy position := by
    intro position hmem
    unfold volumeMismatches at hmem
    split at hmem <;> [skip; split_ifs at hmem] <;> simp_all
  unfold openFindings
  cases truthy copy.slaveTicket with
  | none => simp
  | some slaveTicket =>
      cases hfound : input.slavePosition slaveTicket with
      | none =>
          simp only [hfound, List.mem_singleton, Option.some.injEq, exists_eq_left', reduceCtorEq,
            false_and, exists_false, iff_false]
          rintro rfl
          cases htype
      | some position => simp [hfound, hvolume]

end CompareStateInput

open CompareStateInput

theorem reportsDrift_iff {input : CompareStateInput}
    (hunique : (input.slavePositions.map SlavePositionInfo.ticket).Nodup) {copy : OpenCopyInfo}
    (hcopy : copy ∈ input.openCopies) {position : SlavePositionInfo}
    (hposition : position ∈ input.slavePositions) (hticket : copy.slaveTicket = some position.ticket)
    {expected : ExpectedSlTp}
    (hexpected : input.expectedSlTpByMasterTicket copy.masterTicket = some expected) :
    ReportsDrift input copy ↔ position.ticket ≠ "" ∧
      (FoundOff input.priceTolerated expected.sl position.sl ∨
        FoundOff input.priceTolerated expected.tp position.tp) := by
  have hpresent : input.slavePosition position.ticket = some position := by
    unfold slavePosition mapGet
    exact Table.lookup_of_mem (by rw [List.map_reverse]; exact List.nodup_reverse.mpr hunique)
      (List.mem_reverse.mpr hposition) rfl
  constructor
  · rintro ⟨finding, hmem, htype, hmaster, hslave⟩
    obtain ⟨other, -, hfinding⟩ := sltpMismatch_of_mem hmem htype
    obtain ⟨slaveTicket, htruthy, found, hfound, hstops⟩ := (mem_openFindings_stops htype).mp hfinding
    obtain ⟨expected', hexpected', hoff, rfl⟩ := mem_sltpMismatches.mp hstops
    obtain ⟨hother, hne⟩ := truthy_eq_some.mp htruthy
    -- Whichever copy the finding was made for, it has the tickets of this one.
    obtain rfl : slaveTicket = position.ticket :=
      Option.some.inj (hother.symm.trans (hslave.trans hticket))
    obtain rfl : found = position := Option.some.inj (hfound.symm.trans hpresent)
    rw [Option.some.inj hmaster, hexpected] at hexpected'
    obtain rfl := Option.some.inj hexpected'
    exact ⟨hne, hoff⟩
  · rintro ⟨hne, hoff⟩
    have hstops := mem_sltpMismatches.mpr ⟨expected, hexpected, hoff, rfl⟩
    refine ⟨stopsFinding copy expected position, ?_, rfl, rfl, rfl⟩
    unfold compareState
    simp only [List.mem_append, List.mem_flatMap]
    exact .inl (.inl (.inl (.inr ⟨copy, hcopy, (mem_openFindings_stops rfl).mpr
      ⟨_, truthy_eq_some.mpr ⟨hticket, hne⟩, position, hpresent, hstops⟩⟩)))

/-- A drift is reported exactly when there is one, if and only if each field makes up for what the
engine does with the other; a copy with the empty ticket is passed over. -/
theorem drift_reported_iff (input : CompareStateInput)
    (hunique : (input.slavePositions.map SlavePositionInfo.ticket).Nodup) {copy : OpenCopyInfo}
    (hcopy : copy ∈ input.openCopies) {position : SlavePositionInfo}
    (hposition : position ∈ input.slavePositions) (hticket : copy.slaveTicket = some position.ticket)
    {expected : ExpectedSlTp}
    (hexpected : input.expectedSlTpByMasterTicket copy.masterTicket = some expected) :
    (ReportsDrift input copy ↔ StopsDrift input.priceTolerated expected position) ↔
      if position.ticket = "" then ¬StopsDrift input.priceTolerated expected position
      else MadeUpFor input.priceTolerated expected position := by
  rw [reportsDrift_iff hunique hcopy hposition hticket hexpected]
  split_ifs with hempty
  · simp [hempty]
  · rw [← found_iff_stopsDrift_iff]
    simp [hempty]

namespace Sample

def copied : OpenCopyInfo :=
  { copyId := "CP1", masterTicket := "M1", slaveTicket := some "S1", requestedVolume := some 1 }

def held (sl : Option ℚ) : SlavePositionInfo :=
  { ticket := "S1", symbol := "XAUUSDm", volume := 1, sl := sl, comment := some "copy:CP1" }

/-- A stop is expected, and the position may have one. -/
def stopExpected (expected actual : Option ℚ) : CompareStateInput :=
  { inSync with
    slavePositions := [held actual]
    expectedSlTpByMasterTicket := fun _ => some { sl := expected, tp := none } }

end Sample

open Sample in
theorem moved_stop_reported : ReportsDrift (stopExpected (some 3335) (some 3340)) copied := by
  have hcopy : copied ∈ (stopExpected (some 3335) (some 3340)).openCopies :=
    List.mem_singleton_self _
  have hposition : held (some 3340) ∈ (stopExpected (some 3335) (some 3340)).slavePositions :=
    List.mem_singleton_self _
  have hmade : MadeUpFor (stopExpected (some 3335) (some 3340)).priceTolerated ⟨some 3335, none⟩
      (held (some 3340)) :=
    ⟨fun h => absurd (h.2 3335 rfl) (by decide +kernel), fun h => absurd h.1 (by decide +kernel),
      fun h => absurd (by decide +kernel) h.1, fun h => absurd h.2 (by decide)⟩
  have hiff := drift_reported_iff (stopExpected (some 3335) (some 3340)) (by decide +kernel) hcopy
    hposition rfl rfl
  rw [if_neg (by decide)] at hiff
  exact (hiff.mpr hmade).mpr (.inl (by decide +kernel))

open Sample in
/-- A stop that the master has taken away and the position still has is not reported; a stop that is
not set is, where it is expected as zero; and so is one that is just as far off as tolerated. -/
theorem left_stop_unreported :
    (compareState (stopExpected none (some 3340)) = [] ∧
      StopsDrift (stopExpected none (some 3340)).priceTolerated ⟨none, none⟩ (held (some 3340))) ∧
    (ReportsDrift (stopExpected (some 0) none) copied ∧
      ¬StopsDrift (stopExpected (some 0) none).priceTolerated ⟨some 0, none⟩ (held none)) ∧
    ReportsDrift (stopExpected (some 1.001) (some 1.0011)) copied ∧
      ¬StopsDrift (stopExpected (some 1.001) (some 1.0011)).priceTolerated ⟨some 1.001, none⟩
        (held (some 1.0011)) := by
  refine ⟨⟨by decide +kernel, .inl (by decide +kernel)⟩, ⟨?_, ?_⟩, ?_, ?_⟩
  · exact ⟨stopsFinding copied ⟨some 0, none⟩ (held none), by decide +kernel, rfl, rfl, rfl⟩
  · rintro (h | h)
    · exact absurd h (by decide +kernel)
    · exact absurd h (by decide +kernel)
  · exact ⟨stopsFinding copied ⟨some 1.001, none⟩ (held (some 1.0011)), by decide +kernel, rfl, rfl, rfl⟩
  · rintro (h | h)
    · exact absurd h (by decide +kernel)
    · exact absurd h (by decide +kernel)

end ForexCopy
