import Courier.Proofs.Connection.Service

/-! # The frames of what has arrived

A connection that is served takes the frames of the bytes that have arrived, up to the end of the
stream, behind the header. In which pieces they arrive, at what times, and what is done in between
makes no difference: the frames that were taken come first among those that the codec reads from all
of the bytes (`Intake.frames_prefix`), and when there is nothing to do and the connection still reads,
they are all of them (`Intake.frames_eq`).
-/
set_option autoImplicit false

namespace Courier

open Courier.Wire Courier.Stream

variable {σ : Type}

/-! ## Frames one by one -/

namespace Wire.Frame

/-- Where the rests of two inputs agree, the same frames are read. -/
theorem decodeManyAt_eq {a b : ByteArray} {i j n m : Nat} (h : restOf a i = restOf b j)
    (hi : i ≤ a.size) (hj : j ≤ b.size) (hn : a.size ≤ i + n) (hm : b.size ≤ j + m) :
    decodeManyAt a n i = decodeManyAt b m j := by
  have hsame : a.size - i = b.size - j := by rw [← size_restOf, h, size_restOf]
  induction n generalizing i j m with
  | zero =>
    cases m with
    | zero => rfl
    | succ m => rw [decodeManyAt, decodeManyAt, if_pos (by omega)]
  | succ n ih =>
    by_cases hend : a.size ≤ i
    · have hend' : b.size ≤ j := by omega
      rw [decodeManyAt, if_pos hend]
      cases m with
      | zero => rfl
      | succ m => rw [decodeManyAt, if_pos hend']
    · have hend' : ¬ b.size ≤ j := by omega
      cases m with
      | zero => omega
      | succ m =>
        rw [decodeManyAt, decodeManyAt, if_neg hend, if_neg hend', decodeAt_eq_decode_rest hi,
          decodeAt_eq_decode_rest hj, ← h]
        cases hdecode : decode (restOf a i) with
        | error e => rfl
        | ok field =>
          obtain ⟨f, size⟩ := field
          obtain ⟨hpos, hle, -⟩ := (encode_of_decode hdecode).1
          rw [size_restOf] at hle
          have hrest : restOf a (i + size) = restOf b (j + size) := by
            rw [← restOf_restOf (by omega), ← restOf_restOf (by omega), h]
          have hmore := ih (m := m) hrest (by omega) (by omega) (by omega) (by omega) (by omega)
          simp only [map_ok, later, hmore]

theorem decodeAll_of_ok {b : ByteArray} {f : Frame} {n : Nat} (h : decode b = .ok (f, n)) :
    decodeAll b = (f :: (decodeAll (restOf b n)).1, (decodeAll (restOf b n)).2) := by
  obtain ⟨hpos, hle, -⟩ := (encode_of_decode h).1
  have hsize := size_restOf b n
  have hmany : decodeManyAt b (b.size - 1) n = decodeAll (restOf b n) := by
    have hrest : restOf b n = restOf (restOf b n) 0 := ByteArray.extract_zero_size.symm
    exact decodeManyAt_eq hrest hle (Nat.zero_le _) (by omega) (by omega)
  rw [decodeAll, show b.size = b.size - 1 + 1 by omega, decodeManyAt, if_neg (by omega),
    show decodeAt b 0 = .ok (f, n) from h]
  simp only [hmany]

theorem decodeAll_of_error {b : ByteArray} {e : WireError} (h : decode b = .error e) :
    (decodeAll b).1 = [] := by
  unfold decodeAll
  cases b.size with
  | zero => rfl
  | succ n =>
    rw [decodeManyAt, show decodeAt b 0 = .error e from h]
    split <;> rfl

end Wire.Frame

/-! ## What has arrived -/

/-- The bytes that arrive before the stream ends. -/
def inflow : List Arrival → ByteArray
  | .bytes b :: rest => b ++ inflow rest
  | _ => .empty

theorem inflow_pieces (pieces : List ByteArray) (rest : List Arrival) :
    inflow (pieces.map .bytes ++ rest) = joined .empty pieces ++ inflow rest := by
  induction pieces with
  | nil => exact ByteArray.empty_append.symm
  | cons b pieces ih =>
    rw [List.map_cons, List.cons_append, inflow, ih, joined_cons,
      joined_append (.empty ++ b), ByteArray.empty_append, ByteArray.append_assoc]

/-- What arrives behind the end of the stream is not read. -/
theorem inflow_append (front back : List Arrival) : inflow (front ++ back) =
    if front.any (·.isEnd) then inflow front else inflow front ++ inflow back := by
  induction front with
  | nil => exact ByteArray.empty_append.symm
  | cons a front ih =>
    cases a with
    | bytes b =>
      rw [List.cons_append, inflow, ih, List.any_cons, show (Arrival.bytes b).isEnd = false from rfl,
        Bool.false_or, inflow]
      split
      · rfl
      · rw [ByteArray.append_assoc]
    | _ => rfl

/-- The pieces that were handed to the reader. -/
def pieces (record : List TimedDeed) : List ByteArray := record.filterMap (·.deed.piece?)

namespace Service

/-- Everything that has arrived and can be read. -/
def input (s : Service σ) : ByteArray := inflow s.arrived

/-- What the reader was given. -/
def fed (s : Service σ) : ByteArray := joined .empty (pieces s.record)

end Service

/-! ## What a reader makes of its bytes -/

section reader

variable {r next : Reader} {f : ReadFault}

theorem halt_cases {α : Type} (e : WireError) :
    (Reader.halt e : Progress α) = .waiting ∧ e.isIncomplete = true ∨
      (Reader.halt e : Progress α) = .failed (.malformed e) ∧ e.isIncomplete = false := by
  cases he : e.isIncomplete <;> simp [Reader.halt, he]

theorem header_ready (h : r.header = .ready () next) :
    Header.check r.unused = .ok () ∧ next.unused = restOf r.unused Header.size := by
  rw [Reader.header, header_check] at h
  cases hcheck : Header.check r.unused with
  | error e =>
    rw [hcheck] at h
    obtain ⟨hhalt, -⟩ | ⟨hhalt, -⟩ := halt_cases (α := Unit) e <;> cases hhalt.symm.trans h
  | ok u =>
    rw [hcheck] at h
    cases h
    exact ⟨rfl, unused_advanceTo r Header.size⟩

/-- There are too few bytes. -/
theorem header_waiting (h : r.header = .waiting) : r.unused.size < Header.size := by
  rw [Reader.header, header_check] at h
  cases hcheck : Header.check r.unused with
  | ok u =>
    rw [hcheck] at h
    cases h
  | error e =>
    rw [hcheck] at h
    apply Nat.not_le.1
    intro hle
    have hwhole := Header.not_lacks_of_size_le hle
    rw [hcheck] at hwhole
    obtain ⟨-, he⟩ | ⟨hhalt, -⟩ := halt_cases (α := Unit) e
    · exact hwhole he
    · cases hhalt.symm.trans h

/-- The bytes are wrong, whatever follows. -/
theorem header_failed (h : r.header = .failed f) (more : ByteArray) :
    Header.check (r.unused ++ more) ≠ .ok () := by
  rw [Reader.header, header_check] at h
  cases hcheck : Header.check r.unused with
  | ok u =>
    rw [hcheck] at h
    cases h
  | error e =>
    rw [hcheck] at h
    obtain ⟨hhalt, -⟩ | ⟨-, he⟩ := halt_cases (α := Unit) e
    · cases hhalt.symm.trans h
    · have hwrong : ¬ Lacks (Header.check r.unused) := by
        rw [hcheck]
        exact Bool.eq_false_iff.1 he
      rw [settles_check _ more hwrong, hcheck]
      intro hok
      cases hok

theorem frame_ready {f : Frame} (h : r.frame = .ready f next) :
    ∃ n, Frame.decode r.unused = .ok (f, n) ∧ next.unused = restOf r.unused n := by
  by_cases hempty : r.buffered = 0
  · rw [frame_of_empty hempty] at h
    cases h
  · rw [frame_decode hempty] at h
    cases hdecode : Frame.decode r.unused with
    | ok field =>
      rw [hdecode] at h
      cases h
      exact ⟨field.2, rfl, unused_advanceTo r field.2⟩
    | error e =>
      rw [hdecode] at h
      obtain ⟨hhalt, -⟩ | ⟨hhalt, -⟩ := halt_cases (α := Frame) e <;> cases hhalt.symm.trans h

/-- There is no frame yet. -/
theorem frame_waiting (h : r.frame = .waiting) : (Frame.decodeAll r.unused).1 = [] := by
  by_cases hempty : r.buffered = 0
  · exact Frame.decodeAll_of_error (decode_of_size_eq_zero (r.size_unused.trans hempty))
  · rw [frame_decode hempty] at h
    cases hdecode : Frame.decode r.unused with
    | ok field =>
      rw [hdecode] at h
      cases h
    | error e => exact Frame.decodeAll_of_error hdecode

/-- There is no frame, whatever follows. -/
theorem frame_failed (h : r.frame = .failed f) (more : ByteArray) :
    (Frame.decodeAll (r.unused ++ more)).1 = [] := by
  by_cases hempty : r.buffered = 0
  · rw [frame_of_empty hempty] at h
    cases h
  · rw [frame_decode hempty] at h
    cases hdecode : Frame.decode r.unused with
    | ok field =>
      rw [hdecode] at h
      cases h
    | error e =>
      rw [hdecode] at h
      obtain ⟨hhalt, -⟩ | ⟨-, he⟩ := halt_cases (α := Frame) e
      · cases hhalt.symm.trans h
      · have hwrong : ¬ Lacks (Frame.decode r.unused) := by
          rw [hdecode]
          exact Bool.eq_false_iff.1 he
        exact Frame.decodeAll_of_error
          ((Frame.settles_decodeAt 0 _ more hwrong).trans hdecode)

end reader

/-- What the reader holds is what it was given, less the header and the frames that were taken. -/
structure Intake (s : Service σ) : Prop where
  arrived : s.arrived = (pieces s.record).map .bytes ++ s.connection.arrivals
  before : s.connection.greeted = false → s.connection.reader.unused = s.fed ∧ s.frames = []
  behind : s.connection.greeted = true → Header.check s.fed = .ok () ∧
    ∀ more, Frame.decodeAll (restOf s.fed Header.size ++ more) =
      (s.frames ++ (Frame.decodeAll (s.connection.reader.unused ++ more)).1,
        (Frame.decodeAll (s.connection.reader.unused ++ more)).2)

namespace Intake

variable {s s' : Service σ}

theorem input_eq (h : Intake s) : s.input = s.fed ++ inflow s.connection.arrivals := by
  rw [Service.input, h.arrived, inflow_pieces]
  rfl

/-- The header is at the front of the bytes. -/
theorem check_eq (h : Intake s) (hgreeted : s.connection.greeted = true) (more : ByteArray) :
    Header.check (s.fed ++ more) = .ok () := by
  have hcheck := (h.behind hgreeted).1
  rw [settles_check s.fed more (not_lacks_of_eq_ok hcheck), hcheck]

theorem size_le (h : Intake s) (hgreeted : s.connection.greeted = true) :
    Header.size ≤ s.fed.size := by
  apply Nat.not_lt.1
  intro hlt
  have hcheck := (h.behind hgreeted).1
  rw [Header.check_of_size_lt hlt] at hcheck
  cases hcheck

/-- The frames of all the bytes are those that were taken and those that are left. -/
theorem decodeAll_eq (h : Intake s) (hgreeted : s.connection.greeted = true) :
    (Frame.decodeAll (restOf s.input Header.size)).1 = s.frames ++
      (Frame.decodeAll (s.connection.reader.unused ++ inflow s.connection.arrivals)).1 := by
  rw [h.input_eq, restOf_append (h.size_le hgreeted), (h.behind hgreeted).2]

/-- What was taken comes first among the frames of all the bytes. -/
theorem frames_prefix (h : Intake s) (hgreeted : s.connection.greeted = true) :
    s.frames <+: (Frame.decodeAll (restOf s.input Header.size)).1 :=
  ⟨_, (h.decodeAll_eq hgreeted).symm⟩

/-! ## Each move -/

/-- Nothing has arrived and nothing has been taken. -/
theorem of_same (h : Intake s) (harrived : s'.arrived = s.arrived)
    (hpieces : pieces s'.record = pieces s.record) (hframes : s'.frames = s.frames)
    (harrivals : s'.connection.arrivals = s.connection.arrivals)
    (hreader : s'.connection.reader = s.connection.reader)
    (hgreeted : s'.connection.greeted = s.connection.greeted) : Intake s' := by
  have hfed : s'.fed = s.fed := by rw [Service.fed, Service.fed, hpieces]
  refine ⟨?_, ?_, ?_⟩
  · rw [harrived, hpieces, harrivals]
    exact h.arrived
  · rw [hgreeted, hreader, hfed, hframes]
    exact h.before
  · rw [hgreeted, hreader, hfed, hframes]
    exact h.behind

theorem frames_did (s : Service σ) (d : Deed) : (s.did d).frames = s.frames ++ d.frame?.toList := by
  show (s.record ++ [_]).filterMap _ = _
  rw [List.filterMap_append]
  cases hd : d.frame? <;> simp [Service.frames, hd]

theorem pieces_did (s : Service σ) (d : Deed) :
    pieces (s.did d).record = pieces s.record ++ d.piece?.toList := by
  show (s.record ++ [_]).filterMap _ = _
  rw [List.filterMap_append]
  cases hd : d.piece? <;> simp [pieces, hd]

theorem of_idle (h : Intake s) {d : Deed} (hpiece : d.piece? = none) (hframe : d.frame? = none)
    (harrivals : (s.did d).connection.arrivals = s.connection.arrivals)
    (hreader : (s.did d).connection.reader = s.connection.reader)
    (hgreeted : (s.did d).connection.greeted = s.connection.greeted) : Intake (s.did d) := by
  refine h.of_same rfl ?_ ?_ harrivals hreader hgreeted
  · rw [pieces_did, hpiece]
    exact List.append_nil _
  · rw [frames_did, hframe]
    exact List.append_nil _

theorem feed (h : Intake s) {b : ByteArray} {rest : List Arrival}
    (harrivals : s.connection.arrivals = .bytes b :: rest) : Intake (s.did (.feed b)) := by
  have hpieces : pieces (s.did (.feed b)).record = pieces s.record ++ [b] := pieces_did s _
  have hframes : (s.did (.feed b)).frames = s.frames := (frames_did s _).trans (List.append_nil _)
  have hfed : (s.did (.feed b)).fed = s.fed ++ b := by
    rw [Service.fed, hpieces, joined_append_list]
    rfl
  have hunused : (s.did (.feed b)).connection.reader.unused = s.connection.reader.unused ++ b :=
    s.connection.reader.unused_feed b
  refine ⟨?_, ?_, ?_⟩
  · have hleft : (s.did (.feed b)).connection.arrivals = s.connection.arrivals.tail := rfl
    rw [hpieces, hleft, harrivals, List.map_append, List.append_assoc]
    exact h.arrived.trans (by rw [harrivals]; rfl)
  · intro hgreeted
    obtain ⟨hold, hnone⟩ := h.before hgreeted
    rw [hunused, hfed, hold, hframes]
    exact ⟨rfl, hnone⟩
  · intro hgreeted
    refine ⟨?_, fun more => ?_⟩
    · rw [hfed]
      exact h.check_eq hgreeted b
    · rw [hfed, hunused, hframes, restOf_append (h.size_le hgreeted), ByteArray.append_assoc,
        ByteArray.append_assoc]
      exact (h.behind hgreeted).2 (b ++ more)

/-- The header is taken from the front of what the reader holds. -/
theorem greet (h : Intake s) {next : Reader} (hgreeted : s.connection.greeted = false)
    (hheader : s.connection.reader.header = .ready () next) : Intake (s.did (.greet next)) := by
  obtain ⟨hunused, hnone⟩ := h.before hgreeted
  obtain ⟨hcheck, hnext⟩ := header_ready hheader
  rw [hunused] at hcheck hnext
  have hpieces : pieces (s.did (.greet next)).record = pieces s.record :=
    (pieces_did s _).trans (List.append_nil _)
  have hframes : (s.did (.greet next)).frames = [] :=
    ((frames_did s _).trans (List.append_nil _)).trans hnone
  have hfed : (s.did (.greet next)).fed = s.fed := by rw [Service.fed, hpieces, Service.fed]
  refine ⟨?_, (fun hnot => nomatch hnot), fun _ => ?_⟩
  · rw [hpieces]
    exact h.arrived
  · have hreader : (s.did (.greet next)).connection.reader.unused = restOf s.fed Header.size := hnext
    rw [hfed, hframes, hreader]
    exact ⟨hcheck, fun more => by rw [List.nil_append, Prod.eta]⟩

/-- A frame is taken from the front of what the reader holds. -/
theorem take (h : Intake s) {f : Frame} {next : Reader} {closed : Bool}
    (hgreeted : s.connection.greeted = true)
    (hframe : s.connection.reader.frame = .ready f next) : Intake (s.did (.take f next closed)) := by
  obtain ⟨n, hdecode, hnext⟩ := frame_ready hframe
  have hle := (Frame.encode_of_decode hdecode).1.2.1
  have hpieces : pieces (s.did (.take f next closed)).record = pieces s.record :=
    (pieces_did s _).trans (List.append_nil _)
  have hframes : (s.did (.take f next closed)).frames = s.frames ++ [f] := frames_did s _
  have hfed : (s.did (.take f next closed)).fed = s.fed := by
    rw [Service.fed, hpieces, Service.fed]
  have hconnection : ∃ reading, (s.did (.take f next closed)).connection =
      { s.connection with reader := next, reading } := by
    simp only [Service.did, Connection.perform]
    split <;> exact ⟨_, rfl⟩
  obtain ⟨reading, hconnection⟩ := hconnection
  refine ⟨?_, ?_, fun _ => ?_⟩
  · rw [hpieces, hconnection]
    exact h.arrived
  · rw [hconnection]
    intro hnot
    cases hgreeted.symm.trans hnot
  · rw [hfed, hframes, hconnection]
    obtain ⟨hcheck, hall⟩ := h.behind hgreeted
    refine ⟨hcheck, fun more => ?_⟩
    have hsettled : Frame.decode (s.connection.reader.unused ++ more) = .ok (f, n) :=
      (Frame.settles_decodeAt 0 _ more (not_lacks_of_eq_ok hdecode)).trans hdecode
    rw [hall, Frame.decodeAll_of_ok hsettled, restOf_append hle, ← hnext, List.append_assoc]
    rfl

theorem move (h : Intake s) (hmove : s.Move s') : Intake s' := by
  cases hmove with
  | arrive a =>
    refine ⟨?_, h.before, h.behind⟩
    show s.arrived ++ [a] = _ ++ (s.connection.arrivals ++ [a])
    rw [h.arrived, List.append_assoc]
  | turn hd =>
    obtain ⟨-, -, hdue⟩ := Connection.due_of_deed? hd
    cases hdue with
    | leave => exact h.of_idle rfl rfl rfl rfl rfl
    | tick =>
      unfold Connection.tickDeed
      split <;> exact h.of_idle rfl rfl rfl rfl rfl
    | read hopen hearly hreads =>
      cases hreads with
      | greet hgreeted hheader => exact h.greet hgreeted hheader
      | take hgreeted hframe => exact h.take hgreeted hframe
      | feed hwaits harrivals => exact h.feed harrivals
      | _ => exact h.of_idle rfl rfl rfl rfl rfl
  | write =>
    obtain ⟨writing, sink, hconnection⟩ := s.connection_wrote
    refine h.of_same rfl rfl rfl ?_ ?_ ?_ <;> rw [hconnection]
  | elsewhere hnot => exact h.of_same rfl rfl rfl rfl rfl rfl
  | pass hrest hdue => exact h.of_same rfl rfl rfl rfl rfl rfl

/-! ## At rest -/

/-- A connection that waits for a frame has taken all that have arrived. -/
theorem frames_eq (h : Intake s) (hgreeted : s.connection.greeted = true)
    (hwaits : s.connection.Waits) (harrivals : s.connection.arrivals = []) :
    s.frames = (Frame.decodeAll (restOf s.input Header.size)).1 := by
  rw [Connection.Waits, if_pos hgreeted] at hwaits
  rw [h.decodeAll_eq hgreeted, harrivals, show inflow [] = .empty from rfl, ByteArray.append_empty,
    frame_waiting hwaits, List.append_nil]

/-- A connection that waits for the header has fewer bytes. -/
theorem size_lt (h : Intake s) (hgreeted : s.connection.greeted = false)
    (hwaits : s.connection.Waits) (harrivals : s.connection.arrivals = []) :
    s.input.size < Header.size := by
  rw [Connection.Waits, if_neg (by simp [hgreeted])] at hwaits
  have hlacks := header_waiting hwaits
  rw [h.input_eq, harrivals, show inflow [] = .empty from rfl, ByteArray.append_empty,
    ← (h.before hgreeted).1]
  exact hlacks

end Intake

theorem intake_start (w : ServerWiring σ) (now : Nat) (n : Node σ) : Intake (.start w now n) :=
  ⟨rfl, fun _ => ⟨rfl, rfl⟩, nofun⟩

theorem intake_run {w : ServerWiring σ} {now : Nat} {n : Node σ} {acts : List (ServiceAct σ)}
    {s : Service σ} (h : (Service.start w now n).run acts = some s) : Intake s :=
  Service.run_keeps (fun hmove hs => hs.move hmove) h (intake_start w now n)

end Courier
