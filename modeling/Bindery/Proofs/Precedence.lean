import Bindery.Context.Clock
import Bindery.Proofs.Unsent

/-!
# What comes first

A request is raced against the context of the caller. Whatever the clock shows when the race is
looked at, the first look at which anything is there decides it: a cancellation, else the deadline,
else the reply. Before the race a URL that cannot be joined comes first, and then a context that is
cancelled already.
-/
namespace Bindery.Post

/-- What a race depends on: the context of the caller, the clock at each look, and when which reply
is there, if there ever is one. -/
structure Schedule where
  context : Context
  looks : List Clock
  reply : Option (Nat × Reply)

namespace Schedule

def isCancelled (s : Schedule) (clock : Clock) : Bool := clock.contexts.isCancelled s.context

def isExpired (s : Schedule) (clock : Clock) : Bool := s.context.deadline.any (· ≤ clock.now)

def isAnswered (s : Schedule) (clock : Clock) : Bool := s.reply.any (·.1 ≤ clock.now)

/-- What is there of the race when the clock stands so. -/
def poll (s : Schedule) (clock : Clock) : Poll Reply :=
  match s.reply with
  | some (ready, reply) => clock.poll s.context ready (.ok reply)
  | none => { cancelled := s.isCancelled clock, expired := s.isExpired clock }

def polls (s : Schedule) : List (Poll Reply) := s.looks.map s.poll

/-- The number of the first look at which something is there, beyond all numbers if it never is. -/
def first (s : Schedule) (there : Clock → Bool) : WithTop ℕ :=
  match s.looks.findIdx? there with
  | some n => n
  | none => ⊤

def cancellation (s : Schedule) : WithTop ℕ := s.first s.isCancelled

def expiry (s : Schedule) : WithTop ℕ := s.first s.isExpired

def arrival (s : Schedule) : WithTop ℕ := s.first s.isAnswered

/-- A request to a URL that cannot be reached is lost at once. -/
def facing (s : Schedule) (url : Url) : Schedule :=
  if canReach url then s else { s with reply := some (0, .lost) }

variable {s : Schedule} {there : Clock → Bool} {n : ℕ} {clock : Clock}

theorem first_eq_coe (h : s.first there = n) :
    ∃ clock, s.looks[n]? = some clock ∧ there clock = true := by
  unfold first at h
  split at h
  · rename_i i hi
    obtain rfl : i = n := WithTop.coe_injective h
    obtain ⟨hlt, hthere, -⟩ := List.findIdx?_eq_some_iff_getElem.1 hi
    exact ⟨_, List.getElem?_eq_getElem hlt, hthere⟩
  · cases h

theorem not_there_of_lt_first (h : (n : WithTop ℕ) < s.first there)
    (hclock : s.looks[n]? = some clock) : there clock = false := by
  unfold first at h
  split at h
  · rename_i i hi
    obtain ⟨hlt, -, hbefore⟩ := List.findIdx?_eq_some_iff_getElem.1 hi
    have hn := hbefore n (WithTop.coe_lt_coe.1 h)
    obtain ⟨hn', rfl⟩ := List.getElem?_eq_some_iff.1 hclock
    simpa using hn
  · rename_i hnone
    exact List.findIdx?_eq_none_iff.1 hnone _ (List.mem_of_getElem? hclock)

theorem facing_looks (s : Schedule) (url : Url) : (s.facing url).looks = s.looks := by
  unfold facing
  split <;> rfl

/-! Looking at the race -/

/-- How a look settles the race: with the reply only if nothing else is there. -/
def settled? (s : Schedule) (reader : Json.Reader α) (clock : Clock) : Option (Except Fault α) :=
  if s.isCancelled clock then some (.error .cancelled)
  else if s.isExpired clock then some (.error .deadline)
  else if s.isAnswered clock then s.reply.map fun answer => answer.2.take reader
  else none

/-- A request to the URL is settled by the first look that settles it. -/
theorem race_polls (s : Schedule) (r : Request) (reader : Json.Reader α) :
    race? (r.polls reader s.polls) = s.looks.findSome? ((s.facing r.url).settled? reader) := by
  have hlook : ∀ clock, ({
      cancelled := (s.poll clock).cancelled
      expired := (s.poll clock).expired
      result := if canReach r.url then (s.poll clock).result.map (·.bind (Reply.take reader))
        else some (.error .request) } : Poll α).outcome? =
        (s.facing r.url).settled? reader clock := by
    intro clock
    obtain ⟨context, looks, reply⟩ := s
    have hpoll : (poll ⟨context, looks, reply⟩ clock).cancelled =
          isCancelled ⟨context, looks, reply⟩ clock ∧
        (poll ⟨context, looks, reply⟩ clock).expired =
          isExpired ⟨context, looks, reply⟩ clock ∧
        (poll ⟨context, looks, reply⟩ clock).result =
          if isAnswered ⟨context, looks, reply⟩ clock then reply.map fun answer => .ok answer.2
          else none := by
      cases reply with
      | none => exact ⟨rfl, rfl, by simp [poll]⟩
      | some answer => exact ⟨rfl, rfl, by simp [poll, Clock.poll, isAnswered]⟩
    obtain ⟨hcancelled, hexpired, hresult⟩ := hpoll
    by_cases hreach : canReach r.url = true
    · rw [facing, if_pos hreach, Poll.outcome?, settled?, hcancelled, hexpired, hresult]
      simp only [hreach, if_true]
      split
      · rfl
      · split
        · rfl
        · split
          · cases reply <;> rfl
          · rfl
    · rw [facing, if_neg hreach, Poll.outcome?, settled?, hcancelled, hexpired]
      simp only [hreach]
      rfl
  rw [race?, Request.polls, polls, List.findSome?_map, List.findSome?_map]
  exact congrArg (s.looks.findSome? ·) (funext hlook)

variable {α : Type} {reader : Json.Reader α} {outcome : Except Fault α}

/-- A look that settles the race decides it if nothing is there before. -/
theorem findSome?_settled (hclock : s.looks[n]? = some clock)
    (hsettled : s.settled? reader clock = some outcome) (hcancellation : n ≤ s.cancellation)
    (hexpiry : n ≤ s.expiry) (harrival : n ≤ s.arrival) :
    s.looks.findSome? (s.settled? reader) = some outcome := by
  obtain ⟨hn, rfl⟩ := List.getElem?_eq_some_iff.1 hclock
  refine List.findSome?_eq_some_iff.2 ⟨s.looks.take n, s.looks[n], s.looks.drop (n + 1), ?_,
    hsettled, fun clock hmem => ?_⟩
  · rw [List.getElem_cons_drop, List.take_append_drop]
  · obtain ⟨m, hm, rfl⟩ := List.mem_take_iff_getElem.1 hmem
    have hlt : (m : WithTop ℕ) < n := WithTop.coe_lt_coe.2 (hm.trans_le (min_le_left _ _))
    have hclock := List.getElem?_eq_getElem (hm.trans_le (min_le_right _ _))
    rw [settled?, not_there_of_lt_first (hlt.trans_le hcancellation) hclock,
      not_there_of_lt_first (hlt.trans_le hexpiry) hclock,
      not_there_of_lt_first (hlt.trans_le harrival) hclock]
    rfl

end Schedule

/-- What comes of a reply, and of nothing else. -/
def IsReplied : Except Fault α → Prop
  | .ok _ => True
  | .error .request => True
  | .error (.status _ _) => True
  | .error (.reply _) => True
  | .error _ => False

theorem take_isReplied (reader : Json.Reader α) (reply : Reply) :
    IsReplied (reply.take reader) := by
  unfold Reply.take
  split
  · trivial
  · split
    · split
      · trivial
      · rename_i bytes
        cases reader.run? (Text.piecesOfBytes bytes) <;> trivial
    · split <;> trivial

namespace Schedule

variable {α : Type} {s : Schedule} {reader : Json.Reader α}

theorem settled_cancelled (h : s.cancellation ≠ ⊤) (hexpiry : s.cancellation ≤ s.expiry)
    (harrival : s.cancellation ≤ s.arrival) :
    s.looks.findSome? (s.settled? reader) = some (.error .cancelled) := by
  obtain ⟨n, hn⟩ := WithTop.ne_top_iff_exists.1 h
  obtain ⟨clock, hclock, hthere⟩ := first_eq_coe hn.symm
  rw [← hn] at hexpiry harrival
  exact findSome?_settled hclock (by rw [settled?, hthere]; rfl) hn.le hexpiry harrival

theorem settled_expired (h : s.expiry < s.cancellation) (harrival : s.expiry ≤ s.arrival) :
    s.looks.findSome? (s.settled? reader) = some (.error .deadline) := by
  obtain ⟨n, hn⟩ := WithTop.ne_top_iff_exists.1 h.ne_top
  obtain ⟨clock, hclock, hthere⟩ := first_eq_coe hn.symm
  rw [← hn] at h harrival
  have hgoes := not_there_of_lt_first h hclock
  exact findSome?_settled hclock (by rw [settled?, hgoes, hthere]; rfl) h.le hn.le harrival

theorem settled_answered (h : s.arrival < s.cancellation) (hexpiry : s.arrival < s.expiry) :
    ∃ ready reply, s.reply = some (ready, reply) ∧
      s.looks.findSome? (s.settled? reader) = some (reply.take reader) := by
  obtain ⟨n, hn⟩ := WithTop.ne_top_iff_exists.1 h.ne_top
  obtain ⟨clock, hclock, hthere⟩ := first_eq_coe hn.symm
  rw [← hn] at h hexpiry
  obtain ⟨hsome, -⟩ := (Option.any_eq_true_iff_get _ _).1 hthere
  obtain ⟨⟨ready, reply⟩, hreply⟩ := Option.isSome_iff_exists.1 hsome
  refine ⟨ready, reply, hreply, findSome?_settled hclock ?_ h.le hexpiry.le hn.le⟩
  rw [settled?, not_there_of_lt_first h hclock, not_there_of_lt_first hexpiry hclock, hthere,
    hreply]
  rfl

theorem settled_none (hcancellation : s.cancellation = ⊤) (hexpiry : s.expiry = ⊤)
    (harrival : s.arrival = ⊤) : s.looks.findSome? (s.settled? reader) = none := by
  refine List.findSome?_eq_none_iff.2 fun clock hmem => ?_
  obtain ⟨n, hclock⟩ := List.mem_iff_getElem?.1 hmem
  have hbefore : ∀ {there}, s.first there = ⊤ → there clock = false := fun htop =>
    not_there_of_lt_first (htop ▸ WithTop.coe_lt_top n) hclock
  rw [settled?, hbefore hcancellation, hbefore hexpiry, hbefore harrival]
  rfl

/-- What the result of a race is, depending on what comes first: at one look a cancellation counts
before the deadline and the deadline before the reply. -/
structure Decides (s : Schedule) (reader : Json.Reader α) (result : Option (Except Fault α)) :
    Prop where
  cancelled : s.cancellation ≠ ⊤ → s.cancellation ≤ s.expiry → s.cancellation ≤ s.arrival →
    result = some (.error .cancelled)
  expired : s.expiry < s.cancellation → s.expiry ≤ s.arrival → result = some (.error .deadline)
  answered : s.arrival < s.cancellation → s.arrival < s.expiry →
    ∃ ready reply, s.reply = some (ready, reply) ∧ result = some (reply.take reader)
  undecided : s.cancellation = ⊤ → s.expiry = ⊤ → s.arrival = ⊤ → result = none
  /-- No result of a reply comes once a cancellation or the deadline was there. -/
  replied : ∀ outcome, result = some outcome →
    (IsReplied outcome ↔ s.arrival < s.cancellation ∧ s.arrival < s.expiry)

/-- One of three events comes first, or none ever comes. -/
theorem first_of_three (a b c : WithTop ℕ) : (a ≠ ⊤ ∧ a ≤ b ∧ a ≤ c) ∨ (b < a ∧ b ≤ c) ∨
    (c < a ∧ c < b) ∨ (a = ⊤ ∧ b = ⊤ ∧ c = ⊤) := by
  by_cases hab : a ≤ b
  · by_cases hac : a ≤ c
    · by_cases ha : a = ⊤
      · subst ha
        exact .inr (.inr (.inr ⟨rfl, top_le_iff.1 hab, top_le_iff.1 hac⟩))
      · exact .inl ⟨ha, hab, hac⟩
    · have hca := lt_of_not_ge hac
      exact .inr (.inr (.inl ⟨hca, hca.trans_le hab⟩))
  · have hba := lt_of_not_ge hab
    by_cases hbc : b ≤ c
    · exact .inr (.inl ⟨hba, hbc⟩)
    · have hcb := lt_of_not_ge hbc
      exact .inr (.inr (.inl ⟨hcb.trans hba, hcb⟩))

theorem decides (s : Schedule) (reader : Json.Reader α) :
    s.Decides reader (s.looks.findSome? (s.settled? reader)) where
  cancelled := settled_cancelled
  expired := settled_expired
  answered := settled_answered
  undecided := settled_none
  replied outcome houtcome := by
    rcases first_of_three s.cancellation s.expiry s.arrival with
      ⟨hcome, hexpiry, harrival⟩ | ⟨hexpiry, harrival⟩ | ⟨hcancellation, hexpiry⟩ |
      ⟨hcancellation, hexpiry, harrival⟩
    · obtain rfl := Option.some.inj
        ((settled_cancelled hcome hexpiry harrival).symm.trans houtcome)
      exact iff_of_false id fun hfirst => hfirst.1.not_ge harrival
    · obtain rfl := Option.some.inj ((settled_expired hexpiry harrival).symm.trans houtcome)
      exact iff_of_false id fun hfirst => hfirst.2.not_ge harrival
    · obtain ⟨_, reply, -, hreply⟩ := settled_answered hcancellation hexpiry
      obtain rfl := Option.some.inj (hreply.symm.trans houtcome)
      exact iff_of_true (take_isReplied reader reply) ⟨hcancellation, hexpiry⟩
    · rw [settled_none hcancellation hexpiry harrival] at houtcome
      cases houtcome

/-- Posts a form while the clock stands so, with a race that goes by the schedule. -/
def posting (s : Schedule) (c : Client) (reader : Json.Reader α) (clock : Clock)
    (endpoint : String) (form : Form) : Posting α :=
  c.post reader (s.isCancelled clock) endpoint form fun _ => s.polls

/-- A URL that cannot be joined is reported before anything else, and then a context that is
cancelled before the call, for which no request is started. Otherwise the schedule decides. -/
theorem posting_precedence (s : Schedule) (c : Client) (reader : Json.Reader α) (clock : Clock)
    (endpoint : String) (form : Form) :
    (∀ why, c.base.join endpoint = .error why →
      (s.posting c reader clock endpoint form).request = none ∧
        (s.posting c reader clock endpoint form).result = some (.error (.url endpoint why))) ∧
    ∀ url, c.base.join endpoint = .ok url →
      (s.isCancelled clock = true →
        (s.posting c reader clock endpoint form).request = none ∧
          (s.posting c reader clock endpoint form).result = some (.error .cancelled)) ∧
      (s.isCancelled clock = false →
        (s.facing url).Decides reader (s.posting c reader clock endpoint form).result) := by
  unfold posting
  refine ⟨fun why hjoin => ?_, fun url hjoin => ?_⟩
  · rw [post_of_request_error (request_of_join_error hjoin)]
    exact ⟨rfl, rfl⟩
  · have hrequest : c.request endpoint form = .ok ⟨url, form.body, c.userAgent⟩ := by
      rw [Client.request, hjoin]
      rfl
    refine ⟨fun hcancelled => ?_, fun hgoes => ?_⟩
    · rw [hcancelled]
      exact post_cancelled hrequest
    · have hresult : (c.post reader (s.isCancelled clock) endpoint form fun _ => s.polls).result =
          (s.facing url).looks.findSome? ((s.facing url).settled? reader) := by
        rw [facing_looks, Client.post, hrequest, hgoes]
        exact race_polls s ⟨url, form.body, c.userAgent⟩ reader
      rw [hresult]
      exact decides _ reader

/-- The reply is there when the deadline is. -/
def tie : Schedule :=
  ⟨⟨.root 0, some 10⟩, [{ now := 4 }, { now := 10 }], some (10, .answer 200 (some []))⟩

def tieClient : Client where
  base := ⟨"http", some { host := .name "h" }, .segments [""], none, none⟩

theorem tie_expires :
    tieClient.base.join "a.b" = .ok { tieClient.base with path := .segments ["a.b"] } ∧
      tie.isCancelled {} = false ∧
      (tie.posting tieClient Json.unit {} "a.b" .empty).result = some (.error .deadline) := by
  have hjoin : tieClient.base.join "a.b" =
      .ok { tieClient.base with path := .segments ["a.b"] } :=
    eq_ok_of_toOption (by decide +kernel)
  have hdecides := ((posting_precedence tie tieClient Json.unit {} "a.b" .empty).2 _ hjoin).2 rfl
  exact ⟨hjoin, rfl, hdecides.expired (WithTop.coe_lt_top 1) le_rfl⟩

end Schedule

end Bindery.Post
