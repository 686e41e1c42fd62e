import ForexCopy.Backend.ReconciliationEngine
import Mathlib.Data.List.Perm.Subperm

/-!
# A clean reconciliation

The engine never asks whether the ticket of a slave position belongs to an open copy. That the tickets
agree is a matter of counting: without a finding every position names an open copy and no two name one,
so there are no more positions than open copies; and every open copy's ticket is that of a position.
-/

namespace ForexCopy

/-- What it is for the books of the master, the system and the slave to agree. -/
structure BooksAgree (input : CompareStateInput) : Prop where
  master_known : ∀ position ∈ input.masterPositions,
    position.ticket ∈ input.openCopies.map OpenCopyInfo.masterTicket ∨
      position.ticket ∈ input.closedCopies.map ClosedCopyInfo.masterTicket
  tickets : ∀ ticket, ticket ∈ input.slavePositions.map SlavePositionInfo.ticket ↔
    some ticket ∈ input.openCopies.map OpenCopyInfo.slaveTicket
  faithful : ∀ copy ∈ input.openCopies, ∃ position ∈ input.slavePositions,
    some position.ticket = copy.slaveTicket ∧
      (∀ requested ∈ copy.requestedVolume,
        |Arithmetic.double.sub position.volume requested| ≤ input.volumeTolerated) ∧
      ∀ expected ∈ input.expectedSlTpByMasterTicket copy.masterTicket,
        ¬priceMismatch input.priceTolerated expected.sl position.sl ∧
          ¬priceMismatch input.priceTolerated expected.tp position.tp
  named : ∀ position ∈ input.slavePositions, ∃ copy ∈ input.openCopies,
    extractCopyId position.comment = some copy.copyId
  named_once : (input.slavePositions.map fun position => extractCopyId position.comment).Nodup
  closed : ∀ copy ∈ input.closedCopies, ∀ position ∈ input.slavePositions,
    copy.slaveTicket ≠ some position.ticket

/-! ### The positions of each copy -/

namespace CompareStateInput

/-- The list of a key, empty where there is none. -/
def groupOf (groups : List (String × List SlavePositionInfo)) (copyId : String) :
    List SlavePositionInfo :=
  ((Table.lookup Prod.fst copyId groups).map Prod.snd).getD []

theorem groupOf_cons (group : String × List SlavePositionInfo)
    (rest : List (String × List SlavePositionInfo)) (copyId : String) :
    groupOf (group :: rest) copyId = if group.1 = copyId then group.2 else groupOf rest copyId := by
  unfold groupOf Table.lookup
  rw [List.find?_cons]
  by_cases h : group.1 = copyId <;> simp [h]

theorem groupOf_addPosition (groups : List (String × List SlavePositionInfo)) (copyId : String)
    (position : SlavePositionInfo) (other : String) :
    groupOf (addPosition groups copyId position) other =
      if copyId = other then groupOf groups other ++ [position] else groupOf groups other := by
  induction groups with
  | nil =>
      rw [addPosition, groupOf_cons]
      rfl
  | cons group rest ih =>
      unfold addPosition
      by_cases hkey : group.1 = copyId
      · simp only [hkey, if_true, groupOf_cons]
        split_ifs <;> rfl
      · simp only [hkey, if_false, groupOf_cons, ih]
        split_ifs with hgroup hother
        · exact absurd (hgroup.trans hother.symm) hkey
        · rfl
        · rfl
        · rfl

theorem addPosition_keys (groups : List (String × List SlavePositionInfo)) (copyId : String)
    (position : SlavePositionInfo) {key : String} :
    key ∈ (addPosition groups copyId position).map Prod.fst ↔
      key = copyId ∨ key ∈ groups.map Prod.fst := by
  induction groups with
  | nil => simp [addPosition]
  | cons group rest ih =>
      unfold addPosition
      split_ifs with hkey
      · simp only [List.map_cons, List.mem_cons, hkey]
        tauto
      · simp only [List.map_cons, List.mem_cons, ih]
        tauto

theorem addPosition_nodup {groups : List (String × List SlavePositionInfo)}
    (h : (groups.map Prod.fst).Nodup) (copyId : String) (position : SlavePositionInfo) :
    ((addPosition groups copyId position).map Prod.fst).Nodup := by
  induction groups with
  | nil => simp [addPosition]
  | cons group rest ih =>
      rw [List.map_cons, List.nodup_cons] at h
      unfold addPosition
      split_ifs with hkey
      · exact List.nodup_cons.mpr h
      · refine List.nodup_cons.mpr ⟨fun hmem => ?_, ih h.2⟩
        exact ((addPosition_keys rest copyId position).mp hmem).elim hkey h.1

/-- What the loop leaves: one list for each key, of the positions that name it. -/
theorem positionsByCopyId_spec (input : CompareStateInput) :
    (input.positionsByCopyId.map Prod.fst).Nodup ∧
      ∀ copyId, groupOf input.positionsByCopyId copyId =
        input.slavePositions.filter fun position => input.namedCopy position = some copyId := by
  suffices h : ∀ (positions : List SlavePositionInfo) (groups : List (String × List SlavePositionInfo)),
      (groups.map Prod.fst).Nodup →
      ((positions.foldl input.groupPosition groups).map Prod.fst).Nodup ∧
      ∀ copyId, groupOf (positions.foldl input.groupPosition groups) copyId =
        groupOf groups copyId ++
          positions.filter fun position => input.namedCopy position = some copyId by
    exact h input.slavePositions [] List.nodup_nil
  intro positions
  induction positions with
  | nil => exact fun groups hgroups => ⟨hgroups, fun _ => by simp⟩
  | cons position rest ih =>
      intro groups hgroups
      rw [List.foldl_cons, groupPosition]
      cases hname : input.namedCopy position with
      | none =>
          obtain ⟨hnodup, hgroup⟩ := ih groups hgroups
          exact ⟨hnodup, fun copyId => by simpa [List.filter_cons, hname] using hgroup copyId⟩
      | some name =>
          obtain ⟨hnodup, hgroup⟩ := ih _ (addPosition_nodup hgroups name position)
          refine ⟨hnodup, fun copyId => ?_⟩
          rw [hgroup, groupOf_addPosition, List.filter_cons, hname]
          split_ifs with hsame hother hother <;> simp_all

/-- The positions of an entry are those that name its key. -/
theorem mem_positionsByCopyId {input : CompareStateInput} {copyId : String}
    {positions : List SlavePositionInfo} (h : (copyId, positions) ∈ input.positionsByCopyId) :
    positions = input.slavePositions.filter fun position => input.namedCopy position = some copyId := by
  obtain ⟨hnodup, hgroup⟩ := input.positionsByCopyId_spec
  rw [← hgroup copyId, groupOf, Table.lookup_of_mem hnodup h rfl]
  rfl

/-- A key that some position names has an entry. -/
theorem exists_mem_positionsByCopyId {input : CompareStateInput} {copyId : String}
    (h : (input.slavePositions.filter fun position => input.namedCopy position = some copyId) ≠ []) :
    ∃ positions, (copyId, positions) ∈ input.positionsByCopyId := by
  rw [← input.positionsByCopyId_spec.2 copyId, groupOf] at h
  cases hfound : Table.lookup Prod.fst copyId input.positionsByCopyId with
  | none => simp [hfound] at h
  | some group =>
      have hkey : group.1 = copyId := Table.lookup_key hfound
      exact ⟨group.2, hkey ▸ Table.lookup_mem hfound⟩

/-! ### What each pass asks for -/

theorem ite_singleton_eq_nil_iff {α : Type*} {p : Prop} [Decidable p] {entry : α} :
    (if p then [entry] else []) = [] ↔ ¬p := by
  rw [ite_eq_right_iff]
  simp

theorem missingCopies_eq_nil_iff {input : CompareStateInput} {position : MasterPositionInfo} :
    input.missingCopies position = [] ↔
      position.ticket ∈ input.openCopies.map OpenCopyInfo.masterTicket ∨
        position.ticket ∈ input.closedCopies.map ClosedCopyInfo.masterTicket := by
  rw [missingCopies, ite_singleton_eq_nil_iff, mapGet_isNone_iff, mapGet_isNone_iff, not_and_or]
  simp only [List.mem_map, not_forall, not_not, exists_prop]

theorem volumeMismatches_eq_nil_iff {input : CompareStateInput} {copy : OpenCopyInfo}
    {position : SlavePositionInfo} :
    input.volumeMismatches copy position = [] ↔
      ∀ requested ∈ copy.requestedVolume,
        |Arithmetic.double.sub position.volume requested| ≤ input.volumeTolerated := by
  unfold volumeMismatches
  cases copy.requestedVolume with
  | none => simp
  | some requested =>
      dsimp only
      rw [ite_singleton_eq_nil_iff, not_lt]
      simp

theorem sltpMismatches_eq_nil_iff {input : CompareStateInput} {copy : OpenCopyInfo}
    {position : SlavePositionInfo} :
    input.sltpMismatches copy position = [] ↔
      ∀ expected ∈ input.expectedSlTpByMasterTicket copy.masterTicket,
        ¬priceMismatch input.priceTolerated expected.sl position.sl ∧
          ¬priceMismatch input.priceTolerated expected.tp position.tp := by
  unfold sltpMismatches
  cases input.expectedSlTpByMasterTicket copy.masterTicket with
  | none => simp
  | some expected =>
      dsimp only
      rw [ite_singleton_eq_nil_iff, not_or]
      simp

/-- An open copy with a ticket is without a finding if the position with the ticket matches it. -/
theorem openFindings_eq_nil_iff {input : CompareStateInput}
    (hunique : (input.slavePositions.map SlavePositionInfo.ticket).Nodup) {copy : OpenCopyInfo}
    {ticket : String} (hticket : copy.slaveTicket = some ticket) (hne : ticket ≠ "") :
    input.openFindings copy = [] ↔
      ∃ position ∈ input.slavePositions, some position.ticket = copy.slaveTicket ∧
        (∀ requested ∈ copy.requestedVolume,
        |Arithmetic.double.sub position.volume requested| ≤ input.volumeTolerated) ∧
        ∀ expected ∈ input.expectedSlTpByMasterTicket copy.masterTicket,
          ¬priceMismatch input.priceTolerated expected.sl position.sl ∧
            ¬priceMismatch input.priceTolerated expected.tp position.tp := by
  unfold openFindings
  rw [truthy_eq_some.mpr ⟨hticket, hne⟩]
  dsimp only
  cases hfound : input.slavePosition ticket with
  | none =>
      have hnone := mapGet_isNone_iff.mp (Option.isNone_iff_eq_none.mpr hfound)
      simp only [List.cons_ne_nil, false_iff]
      rintro ⟨position, hmem, hsame, -⟩
      exact hnone position hmem (Option.some.inj (hsame.trans hticket))
  | some position =>
      obtain ⟨hmem, hsame⟩ := mapGet_eq_some hfound
      dsimp only
      rw [List.append_eq_nil_iff, volumeMismatches_eq_nil_iff, sltpMismatches_eq_nil_iff]
      constructor
      · exact fun h => ⟨position, hmem, by rw [hticket, hsame], h⟩
      · rintro ⟨other, hother, hotherTicket, h⟩
        have hkeys : other.ticket = position.ticket :=
          (Option.some.inj (hotherTicket.trans hticket)).trans hsame.symm
        exact Table.eq_of_key_eq hunique hother hmem hkeys ▸ h

theorem closedFindings_eq_nil_iff {input : CompareStateInput} {copy : ClosedCopyInfo} :
    input.closedFindings copy = [] ↔
      ∀ position ∈ input.slavePositions, truthy copy.slaveTicket ≠ some position.ticket := by
  unfold closedFindings
  cases truthy copy.slaveTicket with
  | none => simp
  | some ticket =>
      dsimp only
      rw [ite_singleton_eq_nil_iff, Bool.not_eq_true, Option.isSome_eq_false_iff, slavePosition,
        mapGet_isNone_iff]
      simp only [ne_eq, Option.some.injEq, eq_comm]

theorem unexpectedPositions_eq_nil_iff {input : CompareStateInput} {position : SlavePositionInfo} :
    input.unexpectedPositions position = [] ↔
      ∃ copy ∈ input.openCopies, extractCopyId position.comment = some copy.copyId := by
  unfold unexpectedPositions
  cases hname : input.namedCopy position with
  | none =>
      simp only [List.cons_ne_nil, false_iff]
      rintro ⟨copy, hcopy, hcomment⟩
      have hnot := Option.filter_eq_none_iff.mp hname copy.copyId hcomment
      simp only [decide_eq_true_eq] at hnot
      exact hnot (List.mem_map_of_mem hcopy)
  | some copyId =>
      obtain ⟨hcomment, hmem⟩ := Option.filter_eq_some_iff.mp hname
      simp only [decide_eq_true_eq, List.mem_map] at hmem
      obtain ⟨copy, hcopy, hcopyId⟩ := hmem
      simp only [true_iff]
      exact ⟨copy, hcopy, by rw [hcomment, hcopyId]⟩

theorem duplicatePositions_eq_nil_iff {input : CompareStateInput} :
    (input.positionsByCopyId.flatMap fun (copyId, positions) =>
        duplicatePositions copyId positions) = [] ↔
      ∀ copyId, (input.slavePositions.filter fun position =>
        input.namedCopy position = some copyId).length ≤ 1 := by
  have hgroup : ∀ copyId positions, duplicatePositions copyId positions = [] ↔ positions.length ≤ 1 := by
    intro copyId positions
    unfold duplicatePositions
    split_ifs with h
    · simpa using h
    · simp only [List.map_eq_nil_iff]
      constructor
      · rintro rfl
        simp
      · exact fun hle => absurd hle h
  rw [List.flatMap_eq_nil_iff]
  constructor
  · intro h copyId
    by_cases hnil : (input.slavePositions.filter fun position =>
        input.namedCopy position = some copyId) = []
    · simp [hnil]
    · obtain ⟨positions, hmem⟩ := exists_mem_positionsByCopyId hnil
      rw [← mem_positionsByCopyId hmem]
      exact (hgroup _ _).mp (h _ hmem)
  · rintro h ⟨copyId, positions⟩ hmem
    rw [mem_positionsByCopyId hmem]
    exact (hgroup _ _).mpr (h copyId)

theorem namedCopy_eq_some_iff {input : CompareStateInput} {position : SlavePositionInfo}
    (hnamed : ∃ copy ∈ input.openCopies, extractCopyId position.comment = some copy.copyId)
    {copyId : String} :
    input.namedCopy position = some copyId ↔ extractCopyId position.comment = some copyId := by
  obtain ⟨copy, hcopy, hcomment⟩ := hnamed
  unfold namedCopy
  rw [Option.filter_eq_some_iff, hcomment]
  constructor
  · exact fun h => h.1
  · rintro h
    cases h
    exact ⟨rfl, decide_eq_true (List.mem_map_of_mem hcopy)⟩

/-- Where every position names a copy, no two name one exactly if no list has two positions. -/
theorem named_once_iff {input : CompareStateInput}
    (hnamed : ∀ position ∈ input.slavePositions, ∃ copy ∈ input.openCopies,
      extractCopyId position.comment = some copy.copyId) :
    (∀ copyId, (input.slavePositions.filter fun position =>
      input.namedCopy position = some copyId).length ≤ 1) ↔
      (input.slavePositions.map fun position => extractCopyId position.comment).Nodup := by
  have hcount : ∀ copyId, (input.slavePositions.filter fun position =>
      input.namedCopy position = some copyId).length =
      (input.slavePositions.map fun position => extractCopyId position.comment).count (some copyId) := by
    intro copyId
    rw [List.count, List.countP_map, ← List.countP_eq_length_filter]
    refine List.countP_congr fun position hmem => ?_
    simpa using namedCopy_eq_some_iff (hnamed position hmem)
  rw [List.nodup_iff_count_le_one]
  constructor
  · intro h name
    cases name with
    | none =>
        have hnone : none ∉ input.slavePositions.map fun position =>
            extractCopyId position.comment := by
          intro hmem
          obtain ⟨position, hposition, heq⟩ := List.mem_map.mp hmem
          obtain ⟨copy, -, hcomment⟩ := hnamed position hposition
          exact absurd (heq.symm.trans hcomment) (by simp)
        rw [List.count_eq_zero_of_not_mem hnone]
        omega
    | some copyId => exact hcount copyId ▸ h copyId
  · exact fun h copyId => hcount copyId ▸ h (some copyId)

/-- The counting: if each position names an open copy of its own and each open copy's ticket is that
of a position, then each position's ticket is that of an open copy. -/
theorem tickets_of_positions {input : CompareStateInput}
    (htickets : (input.openCopies.map OpenCopyInfo.slaveTicket).Nodup)
    (hheld : ∀ copy ∈ input.openCopies, ∃ position ∈ input.slavePositions,
      some position.ticket = copy.slaveTicket)
    (hnamed : ∀ position ∈ input.slavePositions, ∃ copy ∈ input.openCopies,
      extractCopyId position.comment = some copy.copyId)
    (honce : (input.slavePositions.map fun position => extractCopyId position.comment).Nodup)
    {position : SlavePositionInfo} (hmem : position ∈ input.slavePositions) :
    some position.ticket ∈ input.openCopies.map OpenCopyInfo.slaveTicket := by
  have hnames : (input.slavePositions.map fun position => extractCopyId position.comment) ⊆
      input.openCopies.map fun copy => some copy.copyId := by
    intro name hname
    obtain ⟨position, hposition, rfl⟩ := List.mem_map.mp hname
    obtain ⟨copy, hcopy, hcomment⟩ := hnamed position hposition
    exact List.mem_map.mpr ⟨copy, hcopy, hcomment.symm⟩
  have hlength := (List.subperm_of_subset honce hnames).length_le
  rw [List.length_map, List.length_map] at hlength
  have hsubset : input.openCopies.map OpenCopyInfo.slaveTicket ⊆
      input.slavePositions.map fun position => some position.ticket := by
    intro ticket hticket
    obtain ⟨copy, hcopy, rfl⟩ := List.mem_map.mp hticket
    obtain ⟨position, hposition, hsame⟩ := hheld copy hcopy
    exact List.mem_map.mpr ⟨position, hposition, hsame⟩
  have hperm := (List.subperm_of_subset htickets hsubset).perm_of_length_le
    (by rw [List.length_map, List.length_map]; exact hlength)
  exact hperm.symm.subset (List.mem_map.mpr ⟨position, hmem, rfl⟩)

end CompareStateInput

open CompareStateInput

/-- There is no finding exactly if the books agree. -/
theorem compareState_eq_nil_iff (input : CompareStateInput)
    (hunique : (input.slavePositions.map SlavePositionInfo.ticket).Nodup)
    (htickets : (input.openCopies.map OpenCopyInfo.slaveTicket).Nodup)
    (hpresent : ∀ copy ∈ input.openCopies, ∃ ticket, copy.slaveTicket = some ticket ∧ ticket ≠ "") :
    compareState input = [] ↔ BooksAgree input := by
  have hopen : ∀ copy ∈ input.openCopies, _ := fun copy hcopy =>
    let ⟨_, hticket, hne⟩ := hpresent copy hcopy
    openFindings_eq_nil_iff hunique hticket hne
  unfold compareState
  rw [List.append_eq_nil_iff, duplicatePositions_eq_nil_iff]
  simp only [List.append_eq_nil_iff, List.flatMap_eq_nil_iff, missingCopies_eq_nil_iff,
    closedFindings_eq_nil_iff, unexpectedPositions_eq_nil_iff]
  constructor
  · rintro ⟨⟨⟨⟨hmaster, hcopies⟩, hclosed⟩, hnamed⟩, hgroups⟩
    have hfaithful := fun copy hcopy => (hopen copy hcopy).mp (hcopies copy hcopy)
    have honce := (named_once_iff hnamed).mp hgroups
    have hheld : ∀ position ∈ input.slavePositions,
        some position.ticket ∈ input.openCopies.map OpenCopyInfo.slaveTicket := fun position hmem =>
      tickets_of_positions htickets
        (fun copy hcopy => let ⟨position, hmem, hsame, _⟩ := hfaithful copy hcopy
          ⟨position, hmem, hsame⟩) hnamed honce hmem
    refine ⟨hmaster, fun ticket => ⟨fun h => ?_, fun h => ?_⟩, hfaithful, hnamed, honce, ?_⟩
    · obtain ⟨position, hmem, rfl⟩ := List.mem_map.mp h
      exact hheld position hmem
    · obtain ⟨copy, hcopy, hticket⟩ := List.mem_map.mp h
      obtain ⟨position, hmem, hsame, -⟩ := hfaithful copy hcopy
      exact Option.some.inj (hsame.trans hticket) ▸ List.mem_map_of_mem hmem
    · intro copy hcopy position hmem hsame
      obtain ⟨openCopy, hopenCopy, hticket⟩ := List.mem_map.mp (hheld position hmem)
      obtain ⟨ticket, hpresent, hne⟩ := hpresent openCopy hopenCopy
      have hticket' : position.ticket = ticket := Option.some.inj (hticket.symm.trans hpresent)
      exact hclosed copy hcopy position hmem (truthy_eq_some.mpr ⟨hsame, hticket' ▸ hne⟩)
  · intro h
    refine ⟨⟨⟨⟨h.master_known, fun copy hcopy => (hopen copy hcopy).mpr (h.faithful copy hcopy)⟩,
      fun copy hcopy position hmem hsame => ?_⟩, h.named⟩, (named_once_iff h.named).mpr h.named_once⟩
    exact h.closed copy hcopy position hmem (truthy_eq_some.mp hsame).1

namespace Sample

/-- One position, copied and in sync. -/
def inSync : CompareStateInput where
  masterPositions := [{ ticket := "M1", symbol := "XAUUSD", volume := 1 }]
  openCopies := [
    { copyId := "CP1", masterTicket := "M1", slaveTicket := some "S1", requestedVolume := some 1 }]
  closedCopies := []
  slavePositions := [
    { ticket := "S1", symbol := "XAUUSDm", volume := 1, sl := some 3340, comment := some "copy:CP1" }]
  expectedSlTpByMasterTicket := fun _ => some { sl := some 3340, tp := none }

end Sample

open Sample in
theorem booksAgree_inSync : BooksAgree inSync :=
  (compareState_eq_nil_iff inSync (by decide +kernel) (by decide +kernel) (by
    intro copy hcopy
    rw [List.mem_singleton.mp hcopy]
    exact ⟨"S1", rfl, by decide⟩)).mp (by decide +kernel)

end ForexCopy
