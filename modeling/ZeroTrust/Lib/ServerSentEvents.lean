import Mathlib.Data.List.Basic

/-!
# Server-sent events

What a client makes of an event stream, on bytes. Lines end with a line feed, a carriage return or both;
each of them is a field of the event that is being built, and an empty line dispatches it. Fields other
than `event` and `data` do not change what is dispatched.
-/

namespace ZeroTrust.ServerSentEvents

/-- The complete lines of a stream, given what has been read of the current one. -/
def lines : List UInt8 → List UInt8 → List (List UInt8)
  | _, [] => []
  | line, 13 :: 10 :: s => line :: lines [] s
  | line, c :: s => if c = 10 ∨ c = 13 then line :: lines [] s else lines (line ++ [c]) s

/-- The name of a field and its value, without the space behind the colon. -/
def field (line : List UInt8) : List UInt8 × List UInt8 :=
  match line.dropWhile (· != 58) with
  | [] => (line, [])
  | _ :: 32 :: value => (line.takeWhile (· != 58), value)
  | _ :: value => (line.takeWhile (· != 58), value)

/-- `event`. -/
def eventField : List UInt8 := [101, 118, 101, 110, 116]

/-- `data`. -/
def dataField : List UInt8 := [100, 97, 116, 97]

/-- `message`, the type of an event that names none. -/
def defaultType : List UInt8 := [109, 101, 115, 115, 97, 103, 101]

/-- The buffers of the event that is being built. -/
structure Buffers where
  type : List UInt8 := []
  data : List UInt8 := []

/-- A line that is not empty. Comments have no field name. -/
def Buffers.read (buffers : Buffers) (line : List UInt8) : Buffers :=
  if (field line).1 = eventField then { buffers with type := (field line).2 }
  else if (field line).1 = dataField then { buffers with data := buffers.data ++ (field line).2 ++ [10] }
  else buffers

/-- An empty line; without data nothing is dispatched. -/
def Buffers.dispatch (buffers : Buffers) : List (List UInt8 × List UInt8) :=
  if buffers.data = [] then []
  else [(if buffers.type = [] then defaultType else buffers.type, buffers.data.dropLast)]

/-- The events of some lines. -/
def interpret : Buffers → List (List UInt8) → List (List UInt8 × List UInt8)
  | _, [] => []
  | buffers, [] :: rest => buffers.dispatch ++ interpret {} rest
  | buffers, line :: rest => interpret (buffers.read line) rest

/-- The types and data of the events of a stream; a byte order mark in front of it is ignored. -/
def events : List UInt8 → List (List UInt8 × List UInt8)
  | 0xEF :: 0xBB :: 0xBF :: s => interpret {} (lines [] s)
  | s => interpret {} (lines [] s)

/-- No line ends inside a text. -/
def OneLine (s : List UInt8) : Prop := 10 ∉ s ∧ 13 ∉ s

/-- Two texts without line ends make one. -/
theorem OneLine.append {s t : List UInt8} (hs : OneLine s) (ht : OneLine t) : OneLine (s ++ t) := by
  constructor
  · simp [hs.1, ht.1]
  · simp [hs.2, ht.2]

/-- A text in which no line ends is read up to the line feed behind it. -/
theorem lines_append {s : List UInt8} (hs : OneLine s) (line rest : List UInt8) :
    lines line (s ++ 10 :: rest) = (line ++ s) :: lines [] rest := by
  induction s generalizing line with
  | nil => simp [lines]
  | cons c s ih =>
    have hc : c ≠ 10 ∧ c ≠ 13 := ⟨fun h => hs.1 (h ▸ List.mem_cons_self), fun h => hs.2 (h ▸ List.mem_cons_self)⟩
    have hmore : OneLine s :=
      ⟨fun h => hs.1 (List.mem_cons_of_mem _ h), fun h => hs.2 (List.mem_cons_of_mem _ h)⟩
    rw [List.cons_append, lines, if_neg (by simp [hc]), ih hmore, List.append_assoc]
    · rfl
    · intro t hct
      exact absurd hct hc.2

/-- A field is split at its first colon. -/
theorem field_append {name : List UInt8} (hname : 58 ∉ name) (value : List UInt8) :
    field (name ++ 58 :: 32 :: value) = (name, value) := by
  have hbefore : ∀ c ∈ name, (c != 58) = true := by
    intro c hc
    exact bne_iff_ne.mpr fun h => hname (h ▸ hc)
  rw [field, List.dropWhile_append_of_pos hbefore, List.takeWhile_append_of_pos hbefore]
  simp

/-- The lines of one event. -/
def eventLines (type data : List UInt8) : List UInt8 :=
  eventField ++ 58 :: 32 :: type ++ 10 :: (dataField ++ 58 :: 32 :: data ++ [10, 10])

/-- An event that is written on its lines is the first one that is read. -/
theorem interpret_eventLines {type data : List UInt8} (htype : OneLine type) (hdata : OneLine data)
    (hne : type ≠ []) (rest : List UInt8) :
    interpret {} (lines [] (eventLines type data ++ rest)) = (type, data) :: interpret {} (lines [] rest) := by
  have hfirst : OneLine (eventField ++ 58 :: 32 :: type) := by
    apply OneLine.append ⟨by decide, by decide⟩
    exact ⟨by simp [htype.1], by simp [htype.2]⟩
  have hsecond : OneLine (dataField ++ 58 :: 32 :: data) := by
    apply OneLine.append ⟨by decide, by decide⟩
    exact ⟨by simp [hdata.1], by simp [hdata.2]⟩
  have htext : eventLines type data ++ rest =
      (eventField ++ 58 :: 32 :: type) ++ 10 :: ((dataField ++ 58 :: 32 :: data) ++ 10 :: ([] ++ 10 :: rest)) := by
    simp [eventLines]
  have hread : ∀ buffers : Buffers, buffers.read (eventField ++ 58 :: 32 :: type) = { buffers with type := type } := by
    intro buffers
    rw [Buffers.read, field_append (by decide), if_pos rfl]
  have hread' : ∀ buffers : Buffers,
      buffers.read (dataField ++ 58 :: 32 :: data) = { buffers with data := buffers.data ++ data ++ [10] } := by
    intro buffers
    have hother : ¬dataField = eventField := by decide
    rw [Buffers.read, field_append (by decide), if_neg hother, if_pos rfl]
  have hempty : OneLine [] := ⟨nofun, nofun⟩
  rw [htext, lines_append hfirst, lines_append hsecond, lines_append hempty, List.nil_append, List.nil_append,
    List.nil_append]
  change interpret ((Buffers.read {} _).read _) _ = _
  rw [hread, hread']
  change Buffers.dispatch _ ++ _ = _
  rw [Buffers.dispatch, if_neg (by simp), if_neg hne]
  simp

/-- The events that are written are the events that are read. -/
theorem events_eventLines {α : Type} (type data : α → List UInt8)
    (hevents : ∀ a, OneLine (type a) ∧ OneLine (data a) ∧ type a ≠ []) (written : List α) :
    events (written.flatMap fun a => eventLines (type a) (data a)) = written.map fun a => (type a, data a) := by
  have hread : interpret {} (lines [] (written.flatMap fun a => eventLines (type a) (data a))) =
      written.map fun a => (type a, data a) := by
    induction written with
    | nil => rfl
    | cons a written ih =>
      obtain ⟨htype, hdata, hne⟩ := hevents a
      rw [List.flatMap_cons, interpret_eventLines htype hdata hne, ih, List.map_cons]
  rw [← hread]
  cases written with
  | nil => rfl
  | cons a written => rfl

end ZeroTrust.ServerSentEvents
