import Tentacle.ProfinetDispatch

/-!
# Input frames of several devices

Every device assigns the frame IDs of its input data from the same start, so that two
devices often send under one ID, and the exchange of each takes the frames of the other.
What such a frame does to the tag values is what the frame loop has written when it comes
back or blocks.
-/

namespace ProfinetIsolation

open GoValues BigEndian GoSlices Locks ProfinetBlocks ProfinetAr ProfinetCyclic
  ProfinetDcp ProfinetIoData ProfinetDispatch

section

-- `fmt.Sprintf("%v", v)`
variable (sprint : Value → String)

variable {sprint} {f : ReceivedFrame}

/-! ## The tag values -/

/-- The last values of the tags of a device. -/
def tagValues (s : Scanner) (deviceID : String) : Option (GoMap String Value) :=
  (s.devices.lookup deviceID).map DeviceState.lastValues

/-- The scanner when the frame loop has come back from the frame or has blocked in it. -/
def afterFrame (sprint : Value → String) (f : ReceivedFrame) (s : Scanner) : Scanner :=
  left (dispatchFrame sprint f) s []

/-- The values are those of `s`, and nothing more is published. -/
def ValuesOf (s t : Scanner) : Prop :=
  (∀ deviceID, tagValues t deviceID = tagValues s deviceID) ∧ t.published = s.published

variable {s t : Scanner} {held : List Mutex} {deviceID : String}

/-- The time of the last frame is no value. -/
theorem valuesOf_touchInput (h : ValuesOf s t) (deviceID : String) (now : Int) :
    ValuesOf s (touchInput t deviceID now) := by
  obtain ⟨hvalues, hpublished⟩ := h
  rw [touchInput]
  split
  · exact ⟨hvalues, hpublished⟩
  next dev hdev =>
    refine ⟨fun other => ?_, hpublished⟩
    rw [← hvalues other, tagValues, tagValues]
    dsimp only [Scanner.setDevice]
    by_cases hother : other = deviceID
    · subst hother
      rw [AList.lookup_insert, hdev]
      rfl
    · rw [AList.lookup_insert_ne hother]

/-- The callback waits for the mutex of the device before it reads anything. -/
theorem leaves_handleInput {cc : ControllerCyclic} (hcc : cc.onInputData = deviceID)
    (hheld : .device deviceID ∈ held) (h : ValuesOf s t) :
    Leaves (ValuesOf s) held (handleInput sprint f deviceID cc) t := by
  rw [handleInput]
  split
  · exact leaves_pure _ h
  next data =>
    have hinput : Leaves (ValuesOf s) held (withLock (.cyclicInput deviceID)
        (write fun s => touchInput s deviceID f.now)) t := by
      by_cases hmem : .cyclicInput deviceID ∈ held
      · exact leaves_withLock_of_mem _ hmem h
      · exact (leaves_write (valuesOf_touchInput h deviceID f.now)).withLock hmem
    refine hinput.bind fun _ u hu => ?_
    rw [hcc]
    exact leaves_withLock_of_mem _ hheld hu

/-- Handing a frame to a device changes no value. -/
theorem leaves_dispatchDevice (hheld : .device deviceID ∉ held) (h : ValuesOf s t) :
    Leaves (ValuesOf s) held (dispatchDevice sprint f deviceID) t := by
  apply leaves_memory_bind
  split
  · exact leaves_pure _ h
  next dev hdev =>
    apply Leaves.withLock hheld
    split
    · exact leaves_pure _ h
    next cc hcc =>
      exact leaves_handleInput (t.wired deviceID dev hdev cc hcc) List.mem_cons_self h

theorem leaves_dispatchFrame (h : ValuesOf s t) :
    Leaves (ValuesOf s) [] (dispatchFrame sprint f) t := by
  apply leaves_memory_bind
  split
  · exact leaves_pure _ h
  · dsimp only
    split
    · exact leaves_write h
    · split
      · refine Leaves.withLock (by simp) (leaves_forM (fun deviceID _ u hu => ?_) h)
        exact leaves_dispatchDevice (by simp) hu
      · exact leaves_pure _ h

/-- An input frame changes no tag value of any device, whichever device has sent it and
whatever frame IDs the devices have assigned, and publishes nothing. A device that takes
the frame waits for its own mutex before its values are touched. -/
theorem valuesOf_afterFrame (sprint : Value → String) (f : ReceivedFrame) (s : Scanner) :
    ValuesOf s (afterFrame sprint f s) :=
  (leaves_dispatchFrame ⟨fun _ => rfl, rfl⟩).1

/-! Nothing else keeps the devices apart: the first relationship of every device has the
same frame ID, and the exchange of one takes the frames of the other. -/

theorem handleInputFrame_of_other [EthernetLink] (macA macB : Bytes) {g : Gathered}
    {cycleCounter : UInt16} {payload : Bytes}
    (h : sendFrame (buildFrame (allocFrameID { localMAC := macA }).1 g cycleCounter) =
      some payload) :
    handleInputFrame (allocFrameID { localMAC := macB }).1 payload =
      some (g.inputData ++ trailer g cycleCounter) :=
  handleInputFrame_sendFrame h

end

end ProfinetIsolation
