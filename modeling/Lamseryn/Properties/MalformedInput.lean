import Lamseryn.Properties.RequestFeeds

/-!
# Malformed input is never dispatched

`http_pipeline_feed` tolerates some llhttp errors before the end of the header section and then leaves no
mark on the request.  What keeps such a request from being dispatched is llhttp itself: its errors are
sticky, so the header section never ends (`Doomed`, third case).  Every other error leaves a mark that no
later chunk removes.
-/

namespace Lamseryn

open ByteText

variable {L : Llhttp}

/-- Errors of llhttp are sticky: after one, llhttp makes no callback and reports an error again. -/
def Llhttp.StickyErrors (L : Llhttp) : Prop :=
  ∀ st buf next, (L.execute st buf).err.isError = true →
    (L.execute (L.execute st buf).state next).callbacks = [] ∧
      (L.execute (L.execute st buf).state next).err.isError = true

/-! ## Errors leave a mark, or silence -/

/-- No later chunk can make the request complete: it carries an error, or it was rejected behind the end
of its header section, or llhttp has failed before that end. -/
inductive Doomed (P : L.Phases) (c : Conn L) : Prop
  | parseError (h : c.h1.parseError = true)
  | rejected (hended : P.ended c.parser = true) (h : c.h1.Rejected)
  | silent (hdone : c.h1.messageDone = false) (st : L.State) (buf : Bytes)
      (hparser : c.parser = (L.execute st buf).state) (herr : (L.execute st buf).err.isError = true)

lemma Doomed.not_respOk {P : L.Phases} {c : Conn L} (h : Doomed P c) :
    httpPipelineClassifyAction c ≠ .respOk := by
  cases h with
  | parseError h => exact (classify_of_rejected (.inl h)).1
  | rejected _ h => exact (classify_of_rejected h).1
  | silent h =>
    unfold httpPipelineClassifyAction
    have hwait : (!c.h1.messageDone) = true := by rw [h, Bool.not_false]
    rw [if_pos hwait]
    split_ifs <;> nofun

/-- No event saves the request. -/
lemma Doomed.step (P : L.Phases) (hsticky : L.StickyErrors) {c : Conn L} (h : Doomed P c)
    (e : FeedEvent) : Doomed P (e.step c) := by
  cases e with
  | bodyTaken n =>
    cases h with
    | parseError h => exact .parseError h
    | rejected hended h => exact .rejected hended h
    | silent hdone st buf hparser herr => exact .silent hdone st buf hparser herr
  | draining on =>
    cases h with
    | parseError h => exact .parseError h
    | rejected hended h => exact .rejected hended h
    | silent hdone st buf hparser herr => exact .silent hdone st buf hparser herr
  | feed next =>
    show Doomed P (httpPipelineFeed c next).1
    cases h with
    | parseError h =>
      rcases httpPipelineFeed_cases c next with ⟨-, hc, -, -⟩ | ⟨-, -, -, hc, -⟩ | ⟨-, hgo, -⟩
      · exact .parseError (by rwa [hc])
      · exact .parseError (by rwa [hc])
      · exact absurd h (by rw [hgo.1]; decide)
    | rejected hended h =>
      obtain ⟨hended', h'⟩ := feeds_rejected P hended h [.feed next]
      exact .rejected hended' h'
    | silent hdone st buf hparser herr =>
      obtain ⟨hcalls, hnext⟩ := hsticky st buf next herr
      rw [← hparser] at hcalls hnext
      rcases httpPipelineFeed_cases c next with
        ⟨-, hc, -, -⟩ | ⟨-, -, -, hc, -⟩ | ⟨-, -, -, -, hstate, -, hh1, -⟩
      · exact .silent (by rwa [hc]) st buf (by rwa [hc]) herr
      · exact .silent (by rwa [hc]) st buf (by rwa [hc]) herr
      · rw [hcalls] at hh1
        have hkept : (httpPipelineFeed c next).1.h1.messageDone = false := by
          rcases hh1 with hh1 | hh1
          · rw [hh1]
            exact hdone
          · rw [hh1]
            exact hdone
        exact .silent hkept c.parser next hstate hnext

lemma Doomed.foldl (P : L.Phases) (hsticky : L.StickyErrors) {c : Conn L} (h : Doomed P c)
    (es : List FeedEvent) : Doomed P (es.foldl FeedEvent.step c) := by
  induction es generalizing c with
  | nil => exact h
  | cons e es ih => exact ih (h.step P hsticky e)

lemma doomed_of_error (P : L.Phases) {c : Conn L} {buf : Bytes}
    (hhead : HeadInStep (P.ended (httpPipelineFeed c buf).1.parser) () (httpPipelineFeed c buf).1.h1)
    (herr : (httpPipelineFeed c buf).2.1.isError = true) : Doomed P (httpPipelineFeed c buf).1 := by
  rcases httpPipelineFeed_cases c buf with
    ⟨-, -, hok, -⟩ | ⟨-, -, -, -, hok⟩ | ⟨-, -, -, -, hstate, hreport, -, hbad, -⟩
  · exact absurd herr (by rw [hok]; decide)
  · exact absurd herr (by rw [hok]; decide)
  · cases hended : P.ended (httpPipelineFeed c buf).1.parser with
    | true =>
      rcases hbad herr with h | h | h
      · exact .parseError h
      · exact .rejected hended (.inr (.inr h))
      · exact absurd (hhead.1.symm.trans h) (by rw [hended]; decide)
    | false =>
      -- no callback has stopped llhttp, so the error is its own
      have hruns : (runCallbacks c.vhost c.h1 (L.execute c.parser buf).callbacks).2 = false := by
        by_contra hstop
        have := runCallbacks_stop (P.execute c.parser buf) (by simpa using hstop)
        rw [← hstate, hended] at this
        exact absurd this (by decide)
      rw [hreport, hruns] at herr
      exact .silent (hhead.2 hended).1 c.parser buf hstate herr

/-- **Malformed input is never dispatched.**  Let llhttp make its callbacks in order and let its errors be
sticky.  Once llhttp reports an error for a chunk of a request, be it tolerated or not, the request is never
classified as complete. -/
theorem malformed_never_dispatched (P : L.Phases) (hsticky : L.StickyErrors) {c : Conn L}
    (hc : c.AtStart) (before after : List FeedEvent) (buf : Bytes)
    (herr : (httpPipelineFeed (before.foldl FeedEvent.step c) buf).2.1.isError = true) :
    httpPipelineClassifyAction ((before ++ .feed buf :: after).foldl FeedEvent.step c) ≠ .respOk := by
  rw [List.foldl_append, List.foldl_cons]
  have hhead := feeds_headInStep P hc (before ++ [.feed buf])
  rw [List.foldl_append, List.foldl_cons, List.foldl_nil] at hhead
  have hdoomed := doomed_of_error P hhead herr
  exact (hdoomed.foldl P hsticky after).not_respOk

/-- What llhttp makes of a request whose header line ends in a bare line feed: it fails behind the value of
the field. -/
def bareLine : List (List Callback × LlhttpErrno) :=
  [([.url (ascii "/")], .ok), ([.headerField (ascii "Host"), .headerValue (ascii "a")], .crExpected)]

lemma bareLine_sticky : (replay bareLine).StickyErrors := by
  intro (k : ℕ) buf next herr
  match k with
  | 0 => exact absurd (show LlhttpErrno.ok.isError = true from herr) (by decide)
  | 1 => exact ⟨rfl, rfl⟩
  | k + 2 => exact ⟨rfl, rfl⟩

/-- The bare line feed is tolerated at first, but the request is not dispatched. -/
theorem malformed_never_dispatched_bareLine :
    (httpPipelineFeed (FeedEvent.step (connInit (sampleWorker (replay bareLine)) none false [])
      (.feed (ascii "GET / HTTP/1.1\r\n"))) (ascii "Host: a\n")).2.1.isError = true ∧
    httpPipelineClassifyAction
      ([.feed (ascii "GET / HTTP/1.1\r\n"), .feed (ascii "Host: a\n"), .feed (ascii "\r\n")].foldl
        FeedEvent.step (connInit (sampleWorker (replay bareLine)) none false [])) ≠ .respOk :=
  ⟨by decide,
    malformed_never_dispatched (replayPhases bareLine (by decide)) bareLine_sticky
      (connInit_atStart (sampleWorker (replay bareLine)) none false [])
      [.feed (ascii "GET / HTTP/1.1\r\n")] [.feed (ascii "\r\n")] (ascii "Host: a\n")
      (by decide)⟩

end Lamseryn
