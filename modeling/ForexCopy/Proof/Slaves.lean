import ForexCopy.Proof.Rows

/-!
# Slave rows in memory

`handleMasterEvent` reads the slave rows once and the runs of `copyToSlave` go on with what it read. A
property of a slave's configuration that every admitted change keeps therefore holds of all rows in
the table and of all rows that a call still has in hand.
-/

namespace ForexCopy

open Machine Pool

/-- The property holds of the slave rows the call has in hand. -/
def Task.HoldsSlaves (Q : Slave → Prop) : Task → Prop
  | .masterEvent _ (.findMaster _ slaves) => ∀ slave ∈ slaves, Q slave
  | .copy run _ => Q run.slave
  | _ => True

def slavesOutline (Q : Slave → Prop) : Outline World Task where
  shared w := ∀ slave ∈ w.slaves, Q slave
  task _ t := t.HoldsSlaves Q

def OfConfig (Q : Slave → Prop) : Prop := ∀ a b : Slave, a.config = b.config → Q a → Q b

variable {w w' : World} {Q : Slave → Prop}

theorem OfConfig.transfer (hQ : OfConfig Q)
    (hslaves : w'.slaves.map Slave.config = w.slaves.map Slave.config) (h : ∀ slave ∈ w.slaves, Q slave) :
    ∀ slave ∈ w'.slaves, Q slave := by
  intro slave hslave
  have hmem : slave.config ∈ w.slaves.map Slave.config := hslaves ▸ List.mem_map_of_mem hslave
  obtain ⟨old, hold, hconfig⟩ := List.mem_map.mp hmem
  exact hQ old slave hconfig (h old hold)

theorem Task.Background.holdsSlaves {task : Task} (h : task.Background) : task.HoldsSlaves Q :=
  Task.of_background (fun _ _ => trivial) (fun _ => trivial) (fun _ _ _ _ => trivial) h

theorem Task.Starting.holdsSlaves {task : Task} (h : task.Starting) : task.HoldsSlaves Q := by
  cases h with
  | background h => exact h.holdsSlaves
  | masterEvent | message | poll => trivial

theorem Task.Step.slaves {reply : Reply} {task : Task} {next : List Task}
    (hstep : Task.Step reply w task w' next) :
    w'.slaves.map Slave.config = w.slaves.map Slave.config := by
  cases hstep with
  | background _ _ hsame => exact hsame.slaves
  | _ => rfl

theorem Task.Step.holdsSlaves {reply : Reply} {task : Task} {next : List Task}
    (hstep : Task.Step reply w task w' next) (hw : ∀ slave ∈ w.slaves, Q slave)
    (htask : task.HoldsSlaves Q) : ∀ t ∈ next, t.HoldsSlaves Q := by
  cases hstep with
  | background _ hnext _ => exact fun t ht => (hnext t ht).holdsSlaves
  | eventRead hread =>
      cases hread with
      | found | wait | again => simp [HoldsSlaves]
      | slaves tradeEventId =>
          intro t ht
          obtain rfl := List.mem_singleton.mp ht
          exact fun slave hslave => hw slave (List.mem_of_mem_filter hslave)
  | fanOut event tradeEventId slaves => simpa [HoldsSlaves] using htask
  | copyRead => simpa [HoldsSlaves] using htask
  | insert run resolvedSymbol slaveTicket volume hkey hnext =>
      intro t ht
      cases hnext with
      | failed => simp at ht
      | queued | offline =>
          obtain rfl := List.mem_singleton.mp ht
          exact htask
  | push => simpa [HoldsSlaves] using htask
  | messageRead | pollRead => simp [HoldsSlaves]
  | _ => simp

theorem eligibleSlaves_ids_nodup {slaves : List Slave} (h : (slaves.map Slave.id).Nodup)
    (masterId : Uuid) : ((eligibleSlaves masterId slaves).map Slave.id).Nodup :=
  h.sublist (List.filter_sublist.map Slave.id)

/-- Only a change of a slave's configuration touches the slave rows from outside. -/
theorem Stimulus.apply_slaves (w : World) (stimulus : Stimulus) :
    (stimulus.apply w).1.slaves = w.slaves ∨ ∃ id input, stimulus = .patchSlave id input ∧
      input.Valid ∧
        (stimulus.apply w).1.slaves = Table.update Slave.id id (Slave.patch input) w.slaves := by
  cases stimulus with
  | ingest masterId payload =>
      simp only [apply, ingestTradeEvent]
      split_ifs <;> exact .inl rfl
  | executionResult slaveId connectorId body => cases body <;> exact .inl rfl
  | patchSlave id input =>
      simp only [apply, World.patchSlave]
      split_ifs with hvalid
      · exact .inr ⟨id, input, rfl, hvalid, rfl⟩
      · exact .inl rfl
  | _ => exact .inl rfl

theorem slaves_preserved (hQ : OfConfig Q) {ok : Config → Action → Prop}
    [∀ c a, Decidable (ok c a)]
    (hpatch : ∀ c id input, ok c (.arrive (.patchSlave id input)) → input.Valid →
      ∀ slave ∈ c.shared.slaves, slave.id = id → Q slave → Q (slave.patch input)) :
    Preserved (restrict Backend.step ok) (slavesOutline Q).Holds := by
  intro c a c' hc hstep
  obtain ⟨hok, hstep⟩ := restrict_eq_some.mp hstep
  refine Backend.outline_step hc hstep ?_ ?_ ?_
  · intro _ reply task w' next _ hget hmove
    exact ⟨hQ.transfer hmove.slaves hc.1,
      hmove.holdsSlaves hc.1 (hc.2 task (List.mem_of_getElem? hget))⟩
  · rintro stimulus rfl
    refine ⟨?_, fun t ht => ((stimulus.apply_frame _).2.2 t ht).holdsSlaves⟩
    rcases stimulus.apply_slaves c.shared with hsame | ⟨id, input, rfl, hvalid, hupdate⟩
    · exact hQ.transfer (by rw [hsame]) hc.1
    · intro slave hslave
      rw [hupdate] at hslave
      obtain ⟨old, hold, ⟨hid, rfl⟩ | ⟨-, rfl⟩⟩ := Table.mem_update.mp hslave
      · exact hpatch c id input hok hvalid old hold hid (hc.1 old hold)
      · exact hc.1 slave hold
  · intro _ _ _ _ hother
    exact hother

end ForexCopy
