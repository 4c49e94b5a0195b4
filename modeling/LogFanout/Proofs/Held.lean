import LogFanout.Proofs.Frame

/- Sinks that no manager has.

   They are under names, and only operations that use a name reach the sink under it (`Op.run_held`). `Op.run_frame` says
   that the others do not see it; here it stays where it is. -/
namespace LogFanout

namespace System

variable (s : System)

@[simp] theorem fanOut_held (m : Nat) (c : Call) : (s.fanOut m c).held = s.held := by
  unfold fanOut
  split <;> rfl

@[simp] theorem setSwitch_held (m : Nat) (on : Bool) : (s.setSwitch m on).held = s.held := by
  unfold setSwitch
  split
  · rfl
  · split <;> rfl

@[simp] theorem announce_held (m : Nat) (before after : Bool) : (s.announce m before after).held = s.held := by
  unfold announce
  split <;> simp

@[simp] theorem setEnabled_held (m : Nat) (on : Bool) : (s.setEnabled m on).held = s.held := by
  unfold setEnabled
  split
  · rfl
  · split <;> simp

@[simp] theorem setSaveLevel_held (m : Nat) (l : Level) : (s.setSaveLevel m l).held = s.held := by
  unfold setSaveLevel
  split
  · rfl
  · split
    · rfl
    · cases l.activates <;> simp

@[simp] theorem written_held (m : Nat) (r : Record) : (s.written (s.write m r)).2.held = s.held := by
  unfold write
  split
  · rfl
  · simp only [written]
    split <;> simp [dispatch]

@[simp] theorem rename_held (m : Nat) (name : String) : (s.rename m name).held = s.held := by
  unfold rename
  split <;> simp

@[simp] theorem register_held (m : Nat) (sink : Sink) (append : Bool) : (s.register m sink append).2.held = s.held := by
  unfold register
  split
  · rfl
  · split
    · rfl
    · cases append <;> rfl

@[simp] theorem release_held (m : Nat) : (s.release m).held = s.held := by
  unfold release
  split
  · rfl
  · split <;> rfl

@[simp] theorem keepHandle_held (name : String) (m : Nat) : (s.keepHandle name m).held = s.held := by
  unfold keepHandle
  split <;> simp

@[simp] theorem dropHandle_held (name : String) : (s.dropHandle name).2.held = s.held := by
  unfold dropHandle
  split <;> simp

@[simp] theorem withdraw_held : s.withdraw.held = s.held := by
  unfold withdraw
  split
  · rfl
  · unfold retire
    split <;> rfl

theorem sayAll_held (lines : List String) :
    (lines.foldl (fun s line => s.say (line ++ "\n")) s).held = s.held := by
  induction lines generalizing s with
  | nil => rfl
  | cons line rest ih => exact ih _

theorem obtain_held {source : Source} {name : String} (other : name ∉ source.names) :
    (obtain source s).2.held.get? name = s.held.get? name := by
  cases source with
  | held old =>
    have other : old ≠ name := fun same => other (List.mem_singleton.mpr same.symm)
    simp only [obtain]
    split
    · rfl
    · simp [Table.get?_erase, other]
  | built spec =>
    simp only [obtain]
    split <;> rfl

theorem withSink_held {source : Source} {name : String} (other : name ∉ source.names)
    (f : Sink → System → Reply × System) (kept : ∀ sink t, (f sink t).2.held.get? name = t.held.get? name) :
    (s.withSink source f).2.held.get? name = s.held.get? name := by
  have same := s.obtain_held other
  unfold withSink
  generalize obtain source s = outcome at same ⊢
  obtain ⟨made, t⟩ := outcome
  cases made with
  | error r => exact same
  | ok sink => exact (kept sink t).trans same

theorem withHandle_held (handle : String) (f : Nat → Reply × System) (kept : ∀ m, (f m).2.held = s.held) :
    (s.withHandle handle f).2.held = s.held := by
  unfold withHandle
  split
  · rfl
  · exact kept _

theorem withBuffer_held (logs : String) (f : Nat → List String → Reply × System)
    (kept : ∀ sink lines, (f sink lines).2.held = s.held) : (s.withBuffer logs f).2.held = s.held := by
  unfold withBuffer
  split
  · rfl
  · exact kept _ _

end System

/-- An operation leaves the sinks alone that are held under names that it does not use. -/
theorem Op.run_held {o : Op} {name : String} (other : name ∉ o.names) (s : System) :
    (o.run s).2.held.get? name = s.held.get? name := by
  have of_eq {t : System} (same : t.held = s.held) : t.held.get? name = s.held.get? name := by rw [same]
  have disk (changed : Except DiskError Disk) : (s.changeDisk changed).2.held = s.held := by cases changed <;> rfl
  cases o with
  | make handle source => exact s.withSink_held other _ fun sink t => by simp [System.newManager]
  | makeEmpty handle => exact of_eq (by simp [Op.run, System.newManager])
  | dropHandle handle => exact of_eq (by simp [Op.run])
  | same one two => exact of_eq (s.withHandle_held one _ fun _ => s.withHandle_held two _ fun _ => rfl)
  | create source handle =>
    have fetched := s.withdraw.obtain_held other
    rw [System.withdraw_held] at fetched
    simp only [Op.run, System.create]
    generalize System.obtain source s.withdraw = outcome at fetched ⊢
    obtain ⟨made, t⟩ := outcome
    cases made with
    | error r => exact fetched
    | ok sink =>
      cases handle with
      | none => exact fetched
      | some handle => simpa [System.install] using fetched
  | destroy => exact of_eq (by simp [Op.run, System.destroy])
  | takeInstance handle =>
    simp only [Op.run]
    split
    · rfl
    · exact of_eq (by simp)
  | register whom source append =>
    cases whom with
    | handle handle =>
      simp only [Op.run, System.withHandle]
      split
      · rfl
      · exact s.withSink_held other _ fun sink t => by simp
    | process =>
      apply s.withSink_held other _
      intro sink t
      simp only [System.registerInstance]
      split
      · simp
      · rfl
  | setEnabled whom on =>
    cases whom with
    | handle handle => exact of_eq (s.withHandle_held handle _ fun m => by simp)
    | process =>
      simp only [Op.run, System.setInstanceEnabled]
      split
      · exact of_eq (by simp)
      · rfl
  | setSaveLevel whom l =>
    cases whom with
    | handle handle => exact of_eq (s.withHandle_held handle _ fun m => by simp)
    | process =>
      simp only [Op.run, System.setInstanceSaveLevel]
      split
      · exact of_eq (by simp)
      · rfl
  | status whom =>
    cases whom with
    | handle handle => exact of_eq (s.withHandle_held handle _ fun _ => rfl)
    | process => rfl
  | write whom r =>
    cases whom with
    | handle handle => exact of_eq (s.withHandle_held handle _ fun m => by simp)
    | process =>
      simp only [Op.run, System.writeInstance]
      split
      · split
        · exact of_eq (by simp)
        · rfl
      · rfl
  | rename whom target =>
    cases whom with
    | handle handle => exact of_eq (s.withHandle_held handle _ fun m => by simp)
    | process =>
      simp only [Op.run, System.renameInstance]
      split
      · exact of_eq (by simp)
      · rfl
  | flush whom =>
    cases whom with
    | handle handle => exact of_eq (s.withHandle_held handle _ fun m => by simp [System.flush])
    | process =>
      simp only [Op.run, System.flushInstance]
      split
      · exact of_eq (by simp [System.flush])
      · rfl
  | drainText logs => exact of_eq (s.withBuffer_held logs _ fun _ _ => rfl)
  | drainLines logs => exact of_eq (s.withBuffer_held logs _ fun _ _ => rfl)
  | bufferSize logs => exact of_eq (s.withBuffer_held logs _ fun _ _ => rfl)
  | drainToConsole logs => exact of_eq (s.withBuffer_held logs _ fun _ lines => s.sayAll_held lines)
  | hold kept source =>
    simp only [Op.names, List.mem_cons, not_or] at other
    apply s.withSink_held other.2 _
    intro sink t
    simp only [System.holdSink]
    split <;> exact (t.held.get?_put kept name sink).trans (if_neg (Ne.symm other.1))
  | callSink called c =>
    have other : called ≠ name := fun same => other (List.mem_singleton.mpr same.symm)
    cases there : s.held.get? called with
    | none => simp [Op.run, System.callSink, there]
    | some sink => simp [Op.run, System.callSink, there, Table.get?_put, other]
  | sinkStatus _ => rfl
  | dropSink dropped =>
    have other : dropped ≠ name := fun same => other (List.mem_singleton.mpr same.symm)
    cases there : s.held.get? dropped with
    | none => simp [Op.run, System.dropSink, there]
    | some sink => simp [Op.run, System.dropSink, there, System.discard, Table.get?_erase, other]
  | put path bytes => exact of_eq (disk _)
  | makeFolder path => exact of_eq (disk _)
  | remove path => exact of_eq (disk _)
  | read path =>
    simp only [Op.run]
    split <;> rfl
  | list => rfl
  | loadOptions path =>
    simp only [Op.run]
    split <;> rfl
  | wait stamp => rfl

end LogFanout
