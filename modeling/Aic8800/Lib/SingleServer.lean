import Mathlib.Data.List.Basic

/-!
# A line before a single server

Customers join the line at its end and the server takes the first of them when
it is free. What has arrived, what was taken and what is finished can be read
off a state of the line, whatever the order of the events that led there.
-/

set_option autoImplicit false

namespace Lib.SingleServer

variable {α : Type*}

structure Line (α : Type*) where
  finished : List α
  busy : Option α
  waiting : List α

namespace Line

def empty : Line α := ⟨[], none, []⟩

def taken (l : Line α) : List α := l.finished++l.busy.toList

def arrived (l : Line α) : List α := l.taken++l.waiting

end Line

inductive Event (α : Type*) where
  | arrive (a : α)
  | take (a : α)
  | finish (a : α)

namespace Event

def arrival : Event α → Option α
  | .arrive a => some a
  | _ => none

def start : Event α → Option α
  | .take a => some a
  | _ => none

def ending : Event α → Option α
  | .finish a => some a
  | _ => none

end Event

inductive Run : List (Event α) → Line α → Prop where
  | start : Run [] .empty
  | arrive {es : List (Event α)} {l : Line α} (a : α) (h : Run es l) :
      Run (es++[.arrive a]) { l with waiting := l.waiting++[a] }
  | take {es : List (Event α)} {f w : List α} {a : α} (h : Run es ⟨f, none, a::w⟩) :
      Run (es++[.take a]) ⟨f, some a, w⟩
  | finish {es : List (Event α)} {f w : List α} {a : α} (h : Run es ⟨f, some a, w⟩) :
      Run (es++[.finish a]) ⟨f++[a], none, w⟩

theorem run_arrived {es : List (Event α)} {l : Line α} (h : Run es l) :
    es.filterMap Event.arrival = l.arrived := by
  induction h with
  | start => rfl
  | arrive a _ ih => simp [ih, Event.arrival, Line.arrived, Line.taken]
  | take _ ih => simp [ih, Event.arrival, Line.arrived, Line.taken]
  | finish _ ih => simp [ih, Event.arrival, Line.arrived, Line.taken]

theorem run_taken {es : List (Event α)} {l : Line α} (h : Run es l) :
    es.filterMap Event.start = l.taken := by
  induction h with
  | start => rfl
  | arrive a _ ih => simp [ih, Event.start, Line.taken]
  | take _ ih => simp [ih, Event.start, Line.taken]
  | finish _ ih => simp [ih, Event.start, Line.taken]

theorem run_finished {es : List (Event α)} {l : Line α} (h : Run es l) :
    es.filterMap Event.ending = l.finished := by
  induction h with
  | start => rfl
  | arrive a _ ih => simp [ih, Event.ending]
  | take _ ih => simp [ih, Event.ending]
  | finish _ ih => simp [ih, Event.ending]

end Lib.SingleServer
