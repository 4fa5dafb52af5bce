import Mathlib.Data.List.Induction
import SurveyReport.Proofs.Template.Offsets
import SurveyReport.Proofs.Template.Stretches

/-!
# Any use of a template

Whoever holds a template may ask for markers and replace them in any order, as often as wanted. No
sequence of calls breaks a template: its offsets stay between characters, what is still to be searched
stays a part of the text at the start, and the markers handed out are those of this text, in turn.

Results:
* `answered`: all that one call can do.
* `run?_inBytes`: the form in bytes answers all calls as the template does, and never fails.
* `pending_run_iff`: a marker waits if the latest one asked for was there and is not replaced.
* `markersIn_run`: the markers handed out are the first ones of the text.
* `run_sound`: all of this for any text and any calls.
-/

namespace SurveyReport

/-! ## Sizes of markers -/

/-- A marker takes six bytes at least. -/
theorem byteSize_behind_add_le {s : List Char} {m : Marked} (h : firstMarker? s = some m) :
    Text.byteSize m.behind + 6 ≤ Text.byteSize s := by
  obtain ⟨inside, hmarker, hs⟩ := exists_of_firstMarker? h
  have hopen : Text.byteSize openMarker = 3 := by decide
  have hclose : Text.byteSize closeMarker = 3 := by decide
  rw [hs, hmarker]
  simp only [Text.byteSize_append]
  omega

/-- A text has six bytes for each of its markers at least. -/
theorem mul_length_markersOf_le (s : List Char) :
    6 * (markersOf (stretches s)).length ≤ Text.byteSize s := by
  induction s using stretches.induct with
  | case1 s h =>
    rw [markersOf_stretches_of_none h]
    exact Nat.zero_le _
  | case2 s m h _ ih =>
    have hle := byteSize_behind_add_le h
    rw [markersOf_stretches_of_some h, List.length_cons]
    omega

namespace Template

/-! ## Calls and replies -/

/-- A call to a template. -/
inductive Call where
  | next
  | replace (text : String)
  | replaceWithImage (path title : String)
  deriving DecidableEq, Repr

/-- What a call is told: a marker or that there is none, and that a marker was replaced or why not. -/
inductive Reply where
  | marker (raw : String)
  | noMarker
  | replaced
  | refused (fault : Fault)
  deriving DecidableEq, Repr

namespace Reply

/-- The reply to a call for the next marker. -/
def ofNext : Option String → Reply
  | some raw => .marker raw
  | none => .noMarker

/-- The reply to a replacement, and the state behind it: without success it stays as it was. -/
def ofReplace {σ : Type} (s : σ) : Except Fault σ → Reply × σ
  | .ok t => (.replaced, t)
  | .error fault => (.refused fault, s)

/-- The marker that is handed out. -/
def marker? : Reply → Option String
  | .marker raw => some raw
  | _ => none

end Reply

/-- The reply to a call, and the template behind it. -/
def answer (t : Template) : Call → Reply × Template
  | .next => (.ofNext t.next.1, t.next.2)
  | .replace text => Reply.ofReplace t (t.replace text)
  | .replaceWithImage path title => Reply.ofReplace t (t.replaceWithImage path title)

/-- The replies to calls, and the template behind them. -/
def run (t : Template) : List Call → List Reply × Template
  | [] => ([], t)
  | call :: calls =>
    let (replies, u) := (t.answer call).2.run calls
    ((t.answer call).1 :: replies, u)

namespace InBytes

/-- The reply to a call in bytes. -/
def answer? (b : InBytes) : Call → Option (Reply × InBytes)
  | .next => b.next?.map fun (raw, c) => (.ofNext raw, c)
  | .replace text => (b.replace? text).map (Reply.ofReplace b)
  | .replaceWithImage path title => (b.replace? (imageReference path title)).map (Reply.ofReplace b)

/-- The replies to calls in bytes; nothing as soon as the text cannot be cut where it must. -/
def run? (b : InBytes) : List Call → Option (List Reply × InBytes)
  | [] => some ([], b)
  | call :: calls => do
    let (reply, c) ← b.answer? call
    let (replies, d) ← c.run? calls
    some (reply :: replies, d)

end InBytes

theorem run_cons (t : Template) (call : Call) (calls : List Call) :
    t.run (call :: calls) = ((t.answer call).1 :: ((t.answer call).2.run calls).1,
      ((t.answer call).2.run calls).2) := rfl

theorem run_concat (t : Template) (calls : List Call) (call : Call) :
    t.run (calls ++ [call]) = ((t.run calls).1 ++ [((t.run calls).2.answer call).1],
      ((t.run calls).2.answer call).2) := by
  induction calls generalizing t with
  | nil => rfl
  | cons first calls ih => rw [List.cons_append, run_cons, run_cons, ih]; rfl

/-! ## The form in bytes -/

theorem map_ofReplace (t : Template) (result : Except Fault Template) :
    Reply.ofReplace t.inBytes (result.map inBytes) =
      ((Reply.ofReplace t result).1, (Reply.ofReplace t result).2.inBytes) := by
  cases result <;> rfl

/-- One call in bytes is answered as the template answers it. -/
theorem answer?_inBytes (t : Template) (call : Call) :
    t.inBytes.answer? call = some ((t.answer call).1, (t.answer call).2.inBytes) := by
  cases call with
  | next =>
    rw [InBytes.answer?, next?_inBytes]
    rfl
  | replace text =>
    rw [InBytes.answer?, replace?_inBytes, Option.map_some, map_ofReplace]
    rfl
  | replaceWithImage path title =>
    rw [InBytes.answer?, replace?_inBytes, Option.map_some, map_ofReplace]
    rfl

/-- All calls in bytes are answered as the template answers them. -/
theorem run?_inBytes (t : Template) (calls : List Call) :
    t.inBytes.run? calls = some ((t.run calls).1, (t.run calls).2.inBytes) := by
  induction calls generalizing t with
  | nil => rfl
  | cons call calls ih =>
    rw [InBytes.run?, answer?_inBytes]
    simp only [Option.bind_eq_bind, Option.bind_some, ih]
    rfl

/-! ## One call -/

/-- All that one call can do to a template. -/
inductive Answered (t : Template) : Call → Reply → Template → Prop
  | marker {m : Marked} (found : firstMarker? t.rest = some m) :
    Answered t .next (.marker (.ofList m.marker)) ⟨t.passed ++ m.before, some m.marker, m.behind⟩
  | noMarker (none_left : firstMarker? t.rest = none) :
    Answered t .next .noMarker ⟨t.passed, none, t.rest⟩
  | replaced {call : Call} (replaces : call ≠ .next) (waits : t.pending.isSome) (text : List Char) :
    Answered t call .replaced ⟨t.settled ++ text, none, t.rest⟩
  | refused {call : Call} (replaces : call ≠ .next) (idle : t.pending = none) :
    Answered t call (.refused .nothingPending) t

theorem answered_replace (t : Template) {call : Call} (h : call ≠ .next) (text : String) :
    Answered t call (Reply.ofReplace t (t.replace text)).1 (Reply.ofReplace t (t.replace text)).2 := by
  unfold replace
  cases hm : t.pending with
  | none => exact .refused h hm
  | some m => exact .replaced h (by rw [hm]; rfl) text.toList

theorem answered (t : Template) (call : Call) :
    Answered t call (t.answer call).1 (t.answer call).2 := by
  cases call with
  | next =>
    unfold answer next
    cases hm : firstMarker? t.rest with
    | none => exact .noMarker hm
    | some m => exact .marker hm
  | replace text => exact answered_replace t (by simp) text
  | replaceWithImage path title => exact answered_replace t (by simp) (imageReference path title)

namespace Answered

variable {t u : Template} {call : Call} {reply : Reply}

/-- A marker waits behind a call that handed it out, and as before when nothing was replaced. -/
theorem pending_iff (h : Answered t call reply u) :
    u.pending.isSome ↔ (∃ raw, reply = .marker raw) ∨
      (∃ fault, reply = .refused fault) ∧ t.pending.isSome := by
  cases h with
  | marker found => simp
  | noMarker none_left => simp
  | replaced replaces waits text => simp
  | refused replaces idle => simp

theorem replaced_iff (h : Answered t call reply u) (hcall : call ≠ .next) :
    reply = .replaced ↔ t.pending.isSome := by
  cases h with
  | marker found => contradiction
  | noMarker none_left => contradiction
  | replaced replaces waits text => simp [waits]
  | refused replaces idle => simp [idle]

theorem eq_of_refused {fault : Fault} (h : Answered t call (.refused fault) u) : u = t := by
  cases h with
  | refused replaces idle => rfl

theorem rest_suffix (h : Answered t call reply u) : u.rest <:+ t.rest := by
  cases h with
  | marker found => exact ⟨_, (eq_of_firstMarker? found).symm⟩
  | noMarker none_left => exact List.suffix_rfl
  | replaced replaces waits text => exact List.suffix_rfl
  | refused replaces idle => exact List.suffix_rfl

/-- Replacements leave alone what is still to be searched. -/
theorem rest_eq (h : Answered t call reply u) (hcall : call ≠ .next) : u.rest = t.rest := by
  cases h with
  | marker found => contradiction
  | noMarker none_left => contradiction
  | replaced replaces waits text => rfl
  | refused replaces idle => rfl

theorem byteSize_rest_add_le {raw : String} (h : Answered t call (.marker raw) u) :
    Text.byteSize u.rest + 6 ≤ Text.byteSize t.rest := by
  cases h with
  | marker found => exact byteSize_behind_add_le found

/-- A call for the next marker takes the first one of those that are left; others take none. -/
theorem markers_eq (h : Answered t call reply u) (n : Nat) :
    (markersOf (stretches t.rest)).take ([call].count .next + n) =
      reply.marker?.toList ++ (markersOf (stretches u.rest)).take n := by
  cases h with
  | marker found =>
    rw [markersOf_stretches_of_some found, Nat.add_comm]
    rfl
  | noMarker none_left =>
    rw [markersOf_stretches_of_none none_left]
    simp [Reply.marker?]
  | replaced replaces waits text => simp [replaces, Reply.marker?]
  | refused replaces idle => simp [replaces, Reply.marker?]

end Answered

/-! ## All calls -/

/-- The latest marker that was asked for was there, and was not replaced since. -/
def Waiting (replies : List Reply) : Prop :=
  ∃ before raw since, replies = before ++ .marker raw :: since ∧
    ∀ reply ∈ since, ∃ fault, reply = .refused fault

theorem not_waiting_nil : ¬ Waiting [] := by
  rintro ⟨before, raw, since, h, -⟩
  simp at h

theorem waiting_concat_iff (replies : List Reply) (reply : Reply) :
    Waiting (replies ++ [reply]) ↔
      (∃ raw, reply = .marker raw) ∨ (∃ fault, reply = .refused fault) ∧ Waiting replies := by
  constructor
  · rintro ⟨before, raw, since, h, hrefused⟩
    -- what follows the marker is empty, or ends with the new reply
    rcases List.eq_nil_or_concat since with rfl | ⟨since, last, rfl⟩
    · have hlast := (List.append_inj' h rfl).2
      exact .inl ⟨raw, (List.cons.inj hlast).1⟩
    · have hparts : replies ++ [reply] = (before ++ .marker raw :: since) ++ [last] := by simpa using h
      obtain ⟨hfront, hlast⟩ := List.append_inj' hparts rfl
      obtain rfl := (List.cons.inj hlast).1
      exact .inr ⟨hrefused reply (by simp), before, raw, since, hfront,
        fun r hr => hrefused r (by simp [hr])⟩
  · rintro (⟨raw, rfl⟩ | ⟨hlast, before, raw, since, rfl, hrefused⟩)
    · exact ⟨replies, raw, [], rfl, by simp⟩
    · refine ⟨before, raw, since ++ [reply], by simp, fun r hr => ?_⟩
      rcases List.mem_append.mp hr with hr | hr
      · exact hrefused r hr
      · exact List.mem_singleton.mp hr ▸ hlast

/-- A marker waits if the latest one asked for was there and is not replaced. -/
theorem pending_run_iff {t : Template} (h : t.pending = none) (calls : List Call) :
    (t.run calls).2.pending.isSome ↔ Waiting (t.run calls).1 := by
  induction calls using List.reverseRecOn with
  | nil => simp [run, h, not_waiting_nil]
  | append_singleton calls call ih =>
    rw [run_concat, waiting_concat_iff, ← ih]
    exact (answered _ call).pending_iff

/-- What is still to be searched is what stood there at the end of the text. -/
theorem rest_run_suffix (t : Template) (calls : List Call) : (t.run calls).2.rest <:+ t.rest := by
  induction calls generalizing t with
  | nil => exact List.suffix_rfl
  | cons call calls ih => exact (ih (t.answer call).2).trans (answered t call).rest_suffix

/-- The markers that replies hand out. -/
def markersIn (replies : List Reply) : List String := replies.filterMap Reply.marker?

theorem markersIn_cons (reply : Reply) (replies : List Reply) :
    markersIn (reply :: replies) = reply.marker?.toList ++ markersIn replies := by
  cases h : reply.marker? <;> simp [markersIn, h]

/-- The markers handed out are the first ones of the text, as many as were asked for. -/
theorem markersIn_run (t : Template) (calls : List Call) :
    markersIn (t.run calls).1 = (markersOf (stretches t.rest)).take (calls.count .next) := by
  induction calls generalizing t with
  | nil => rfl
  | cons call calls ih =>
    have hcount : (call :: calls).count .next = [call].count .next + calls.count .next := by
      rw [← List.count_append]
      rfl
    rw [run_cons, markersIn_cons, ih, hcount, (answered t call).markers_eq]

/-- What holds of a template over `text` that gave `replies` to `calls`. -/
structure Sound (text : String) (calls : List Call) (replies : List Reply) (t : Template) : Prop where
  in_bytes : (InBytes.ofText text).run? calls = some (replies, t.inBytes)
  borders : t.inBytes.OnBorders
  replaced_iff : ∀ call, call ≠ .next → ((t.answer call).1 = .replaced ↔ Waiting replies)
  refused : ∀ call fault, (t.answer call).1 = .refused fault → (t.answer call).2 = t
  behind : Text.cutAtByte? t.inBytes.text t.inBytes.cursor = some (.ofList t.passed, .ofList t.rest)
  original : t.rest <:+ text.toList
  untouched : ∀ call, call ≠ .next → (t.answer call).2.rest = t.rest
  shorter : ∀ raw, (t.answer .next).1 = .marker raw →
    Text.byteSize (t.answer .next).2.rest + 6 ≤ Text.byteSize t.rest
  markers : markersIn replies = (markersOf (stretches text.toList)).take (calls.count .next)
  few : (markersIn replies).length ≤ text.utf8ByteSize / 6

/-- **Any use is safe.** After any calls over any text, the form in bytes has never failed, and its
    offsets stand between characters. A replacement succeeds exactly if a marker waits, and else changes
    nothing. What stands behind the cursor is the end of the text at the start: replacements leave it
    alone, and each marker that is handed out makes it shorter by six bytes at least. So the markers
    handed out are those of the text at the start, each of them once, and at most one for each six bytes
    of it. -/
theorem run_sound (text : String) (calls : List Call) :
    Sound text calls ((ofText text).run calls).1 ((ofText text).run calls).2 where
  in_bytes := by
    rw [← inBytes_ofText]
    exact run?_inBytes (ofText text) calls
  borders := onBorders_inBytes _
  replaced_iff := by
    intro call hcall
    rw [(answered _ call).replaced_iff hcall]
    exact pending_run_iff rfl calls
  refused := by
    intro call fault hrefused
    have h := answered ((ofText text).run calls).2 call
    rw [hrefused] at h
    exact h.eq_of_refused
  behind := cutAtByte?_cursor _
  original := rest_run_suffix (ofText text) calls
  untouched := fun call => (answered _ call).rest_eq
  shorter := by
    intro raw hmarker
    have h := answered ((ofText text).run calls).2 .next
    rw [hmarker] at h
    exact h.byteSize_rest_add_le
  markers := markersIn_run (ofText text) calls
  few := by
    have hmarkers := markersIn_run (ofText text) calls
    have hall := mul_length_markersOf_le text.toList
    rw [Text.byteSize_toList] at hall
    rw [hmarkers, List.length_take]
    show min _ (markersOf (stretches text.toList)).length ≤ _
    omega

/-- A marker that was put in is not handed out. -/
example : ((ofText "é\x7b\x7b\x7ba\x7d\x7d\x7d\x7b\x7b\x7bb\x7d\x7d\x7d").run
      [.next, .replace "\x7b\x7b\x7bü\x7d\x7d\x7d", .replace "c", .next]).1 =
    [.marker "\x7b\x7b\x7ba\x7d\x7d\x7d", .replaced, .refused .nothingPending,
      .marker "\x7b\x7b\x7bb\x7d\x7d\x7d"] := by
  decide

end Template

end SurveyReport
