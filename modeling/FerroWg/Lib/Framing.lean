import Mathlib.Data.List.Infix
import Mathlib.Data.List.TakeDrop
import Mathlib.Data.List.TakeWhile

/-!
# Messages in a stream

Every message ends with a terminator, and a reader takes the stream line by line. A stream may be
cut anywhere; of the messages in it the reader then sees the first few, and no others.
-/

namespace FerroWg.Lib.Framing

variable {β α : Type} [DecidableEq β] {stop : β}

/-- The line in front, with its terminator if it has one. -/
def firstLine (stop : β) (stream : List β) : List β :=
  let (before, rest) := stream.span (· != stop)
  before ++ rest.take 1

def afterLine (stop : β) (stream : List β) : List β :=
  (stream.span (· != stop)).2.drop 1

theorem firstLine_eq (stream : List β) : firstLine stop stream =
    stream.takeWhile (· != stop) ++ (stream.dropWhile (· != stop)).take 1 := by
  rw [firstLine, List.span_eq_takeWhile_dropWhile]

theorem afterLine_eq (stream : List β) :
    afterLine stop stream = (stream.dropWhile (· != stop)).drop 1 := by
  rw [afterLine, List.span_eq_takeWhile_dropWhile]

theorem firstLine_append_afterLine (stream : List β) :
    firstLine stop stream ++ afterLine stop stream = stream := by
  rw [firstLine_eq, afterLine_eq, List.append_assoc, List.take_append_drop,
    List.takeWhile_append_dropWhile]

theorem firstLine_eq_nil {stream : List β} : firstLine stop stream = [] ↔ stream = [] := by
  constructor
  · intro nothing
    rw [firstLine_eq, List.append_eq_nil_iff, List.take_eq_nil_iff] at nothing
    have whole := List.takeWhile_append_dropWhile (p := (· != stop)) (l := stream)
    rw [nothing.1, nothing.2.resolve_left Nat.one_ne_zero, List.append_nil] at whole
    exact whole.symm
  · rintro rfl
    rfl

theorem afterLine_shorter {stream : List β} (some_left : stream ≠ []) :
    (afterLine stop stream).length < stream.length := by
  have whole : (firstLine stop stream ++ afterLine stop stream).length = stream.length :=
    congrArg List.length (firstLine_append_afterLine stream)
  have line : firstLine stop stream ≠ [] := fun nothing => some_left (firstLine_eq_nil.mp nothing)
  have positive := List.length_pos_of_ne_nil line
  rw [List.length_append] at whole
  omega

section

variable {body rest : List β}

theorem span_free (free : stop ∉ body) (rest : List β) :
    (body ++ stop :: rest).span (· != stop) = (body, stop :: rest) := by
  have solid : ∀ b ∈ body, (b != stop) = true := by
    intro b member
    exact bne_iff_ne.mpr fun same => free (same ▸ member)
  rw [List.span_eq_takeWhile_dropWhile, List.takeWhile_append_of_pos solid,
    List.dropWhile_append_of_pos solid, List.takeWhile_cons_of_neg (by simp),
    List.dropWhile_cons_of_neg (by simp), List.append_nil]

theorem firstLine_ended (free : stop ∉ body) (rest : List β) :
    firstLine stop (body ++ stop :: rest) = body ++ [stop] := by
  rw [firstLine, span_free free]
  rfl

theorem afterLine_ended (free : stop ∉ body) (rest : List β) :
    afterLine stop (body ++ stop :: rest) = rest := by
  rw [afterLine, span_free free]
  rfl

theorem span_open (free : stop ∉ body) : body.span (· != stop) = (body, []) := by
  have solid : ∀ b ∈ body, (b != stop) = true := by
    intro b member
    exact bne_iff_ne.mpr fun same => free (same ▸ member)
  rw [List.span_eq_takeWhile_dropWhile, List.takeWhile_eq_self_iff.mpr solid,
    List.dropWhile_eq_nil_iff.mpr solid]

/-- A line may want its terminator only where the stream ends. -/
theorem firstLine_open (free : stop ∉ body) : firstLine stop body = body := by
  rw [firstLine, span_open free]
  exact List.append_nil _

theorem afterLine_open (free : stop ∉ body) : afterLine stop body = [] := by
  rw [afterLine, span_open free]
  rfl

end

/-! ## A reader -/

/-- Line after line is taken, until one is refused. Some lines mean nothing. What is left of a line
when the stream breaks off, instead of coming to its end, is lost. -/
def readLines (stop : β) (take : List β → Option (Option α)) (ends : Bool) : List β → List α
  | [] => []
  | b :: rest =>
    let line := firstLine stop (b :: rest)
    if stop ∈ line ∨ ends then
      match take line with
      | none => []
      | some message =>
        message.toList ++ readLines stop take ends (afterLine stop (b :: rest))
    else []
termination_by stream => stream.length
decreasing_by exact afterLine_shorter (List.cons_ne_nil _ _)

section

variable {take : List β → Option (Option α)} {ends : Bool} {body arrived : List β} {message : α}

theorem readLines_step {stream : List β} (some_left : stream ≠ []) :
    readLines stop take ends stream =
      if stop ∈ firstLine stop stream ∨ ends then
        match take (firstLine stop stream) with
        | none => []
        | some message => message.toList ++ readLines stop take ends (afterLine stop stream)
      else [] := by
  cases stream with
  | nil => exact absurd rfl some_left
  | cons b rest => rw [readLines]

theorem readLines_ended (free : stop ∉ body) {message : Option α}
    (taken : take (body ++ [stop]) = some message) (rest : List β) :
    readLines stop take ends ((body ++ [stop]) ++ rest) =
      message.toList ++ readLines stop take ends rest := by
  rw [List.append_assoc, List.singleton_append, readLines_step (by simp), firstLine_ended free,
    afterLine_ended free, taken, if_pos (.inl (by simp))]

/-- The last line of a stream, without a terminator. -/
theorem readLines_open (take : List β → Option (Option α)) (ends : Bool) (free : stop ∉ body)
    (some_left : body ≠ []) :
    readLines stop take ends body = if ends then (take body).join.toList else [] := by
  rw [readLines_step some_left, firstLine_open free, afterLine_open free]
  simp only [free, false_or]
  split
  · rcases take body with _ | _ | message <;> simp [readLines]
  · rfl

/-- A message is told from its encoding, with or without the terminator, and from no less. -/
structure Carries (stop : β) (take : List β → Option (Option α)) (body : List β) (message : α) :
    Prop where
  free : stop ∉ body
  ended : take (body ++ [stop]) = some (some message)
  whole : take body = some (some message)
  cut : ∀ part, part <+: body → part ≠ body → (take part).join = none

omit [DecidableEq β] in
/-- A line that was cut is the message, or nothing. -/
theorem Carries.take_cut {part : List β} (carries : Carries stop take body message)
    (cut : part <+: body ++ [stop]) :
    (body <+: part ∧ take part = some (some message)) ∨
      (¬ body <+: part ∧ (take part).join = none) := by
  rcases List.prefix_concat_iff.mp cut with rfl | inside
  · exact .inl ⟨List.prefix_append _ _, carries.ended⟩
  · by_cases same : part = body
    · subst same
      exact .inl ⟨List.prefix_rfl, carries.whole⟩
    · refine .inr ⟨fun reverse => ?_, carries.cut part inside same⟩
      exact same (inside.eq_of_length_le reverse.length_le)

omit [DecidableEq β] in
/-- A reader that is after the messages of one kind. -/
theorem Carries.keep {γ : Type} {kept : γ} {keep : α → Option γ}
    (carries : Carries stop take body message) (wanted : keep message = some kept) :
    Carries stop (fun line => (take line).map (·.bind keep)) body kept where
  free := carries.free
  ended := by simp [carries.ended, wanted]
  whole := by simp [carries.whole, wanted]
  cut part inside short := by
    have lost := carries.cut part inside short
    rcases taken : take part with _ | _ | other
    · rfl
    · rfl
    · rw [taken] at lost
      cases lost

/-- The reader of what arrived of one line. -/
theorem readLines_part (ends : Bool) (carries : Carries stop take body message) (cut : arrived <+: body ++ [stop])
    (short : ¬ body ++ [stop] <+: arrived) :
    ∃ count ≤ 1, readLines stop take ends arrived = [message].take count := by
  have inside : arrived <+: body := by
    rcases List.prefix_concat_iff.mp cut with rfl | inside
    · exact absurd List.prefix_rfl short
    · exact inside
  by_cases nothing : arrived = []
  · subst nothing
    exact ⟨0, Nat.zero_le _, by rw [readLines]; rfl⟩
  have free : stop ∉ arrived := fun member => carries.free (inside.subset member)
  rw [readLines_open take ends free nothing]
  cases ends with
  | false => exact ⟨0, Nat.zero_le _, rfl⟩
  | true =>
    rcases carries.take_cut cut with ⟨_, read⟩ | ⟨_, lost⟩
    · exact ⟨1, Nat.le_refl _, by rw [read]; rfl⟩
    · exact ⟨0, Nat.zero_le _, by rw [lost]; rfl⟩

end

/-! ## Streams of messages -/

/-- Every message with its terminator, one after the other. -/
def stream (stop : β) (encode : α → List β) (sent : List α) : List β :=
  sent.flatMap fun a => encode a ++ [stop]

section

variable {take : List β → Option (Option α)} {encode : α → List β} {sent : List α}

omit [DecidableEq β] in
theorem stream_cons (encode : α → List β) (a : α) (sent : List α) :
    stream stop encode (a :: sent) = (encode a ++ [stop]) ++ stream stop encode sent := rfl

/-- A reader gets the first few of the messages from a stream that was cut: all that arrived with
their terminator, and perhaps one more that wants only this. -/
theorem readLines_cut (carried : ∀ a ∈ sent, Carries stop take (encode a) a) (ends : Bool)
    {arrived : List β} (cut : arrived <+: stream stop encode sent) :
    ∃ count ≤ sent.length, readLines stop take ends arrived = sent.take count ∧
      ∀ whole ≤ sent.length, stream stop encode (sent.take whole) <+: arrived → whole ≤ count := by
  induction sent generalizing arrived with
  | nil =>
    obtain rfl := List.prefix_nil.mp cut
    exact ⟨0, Nat.le_refl _, by rw [readLines]; rfl, fun whole none _ => none⟩
  | cons a rest ih =>
    rw [List.forall_mem_cons] at carried
    obtain ⟨head, later⟩ := carried
    rw [stream_cons] at cut
    by_cases first : encode a ++ [stop] <+: arrived
    · obtain ⟨tail, rfl⟩ := first
      obtain ⟨count, bound, read, all⟩ := ih later ((List.prefix_append_right_inj _).mp cut)
      refine ⟨count + 1, Nat.succ_le_succ bound, ?_, fun whole fits there => ?_⟩
      · rw [readLines_ended head.free head.ended, read]
        rfl
      · cases whole with
        | zero => exact Nat.zero_le _
        | succ whole =>
          rw [List.take_succ_cons, stream_cons, List.prefix_append_right_inj] at there
          exact Nat.succ_le_succ (all whole (Nat.le_of_succ_le_succ fits) there)
    · have part : arrived <+: encode a ++ [stop] := by
        rcases List.prefix_or_prefix_of_prefix cut (List.prefix_append _ _) with short | long
        · exact short
        · exact absurd long first
      obtain ⟨count, bound, read⟩ := readLines_part ends head part first
      refine ⟨count, by rw [List.length_cons]; omega, ?_, fun whole _ there => ?_⟩
      · rw [read]
        rcases Nat.le_one_iff_eq_zero_or_eq_one.mp bound with rfl | rfl <;> rfl
      · cases whole with
        | zero => exact Nat.zero_le _
        | succ whole =>
          rw [List.take_succ_cons, stream_cons] at there
          exact absurd ((List.prefix_append _ _).trans there) first

/-- What arrives whole is read whole. -/
theorem readLines_stream (carried : ∀ a ∈ sent, Carries stop take (encode a) a) (ends : Bool) :
    readLines stop take ends (stream stop encode sent) = sent := by
  obtain ⟨count, _, read, all⟩ := readLines_cut carried ends List.prefix_rfl
  have enough := all sent.length (Nat.le_refl _) (by rw [List.take_length])
  rw [read, List.take_of_length_le enough]

end

end FerroWg.Lib.Framing
