import LmsBackend.Effects.Identity
import LmsBackend.RateLimit.Windows

/-!
# Whom the rate limit counts

A request without a valid bearer token is counted under its client address, which the
middleware reads from `X-Forwarded-For` if the header is there. The proxy appends the
peer's address to what the client sent.

- `Route`, `received`: a request reaches the application directly or through the proxy.
- `named`: the address that a request names first.
- `same_identity_iff`: the requests of a peer are counted as one client exactly when they
  name one address.
-/

namespace LmsBackend

open Mvcc Interleave Windows

variable {env : Env} {ι : Type}

/-! ## From the peer to the application -/

/-- How a request reaches the application: from the peer itself, or through the proxy that
listens at this address. -/
inductive Via
  | direct
  | proxy (address : String)

/-- `$proxy_add_x_forwarded_for`: what the client sent, and the peer's address after it. -/
def addForwardedFor (peer : String) : Headers → String
  | [] => peer
  | (name, value) :: rest =>
    if name = "x-forwarded-for" then value ++ ", " ++ addForwardedFor peer rest
    else addForwardedFor peer rest

/-- The headers that the proxy passes on. -/
def proxied (peer : String) (headers : Headers) : Headers :=
  ("x-real-ip", peer) :: ("x-forwarded-for", addForwardedFor peer headers) ::
    headers.filter fun x => x.1 ≠ "x-real-ip" ∧ x.1 ≠ "x-forwarded-for"

/-- The headers and the client address that the application receives. -/
def received (via : Via) (peer : String) (headers : Headers) : Headers × Option String :=
  match via with
  | .direct => (headers, some peer)
  | .proxy address => (proxied peer headers, some address)

/-- The first address of a comma-separated list. -/
def firstAddress (value : String) : String :=
  String.ofList (Text.strip (Text.partition ',' value.toList).1)

/-- The address that a request of the peer names first: that of its `X-Forwarded-For`, and
the peer's own if it sends none. The proxy does not take an empty header for an absent one. -/
def named (via : Via) (peer : String) (headers : Headers) : String :=
  match via with
  | .direct => ((headers.nonempty "x-forwarded-for").map firstAddress).getD peer
  | .proxy _ => ((headers.find "x-forwarded-for").map firstAddress).getD peer

/-- The identity of a client without a user: its address, or `"anon"`. -/
def addressIdentity (address : String) : String := if address = "" then "anon" else address

/-- The request carries no access token that is valid on arrival. -/
def Anonymous (env : Env) (w : World) (headers : Headers) : Prop :=
  ∀ token, bearerPart env ((headers.find "authorization").getD "") = some token →
    ∀ p, decodeIn env token "access" (env.clock w.ticks) ≠ .ok p

/-! ## The address the middleware reads -/

theorem partition_append_fst (sep : Char) (s t : List Char) :
    (Text.partition sep (s ++ sep :: t)).1 = (Text.partition sep s).1 := by
  induction s with
  | nil => simp [Text.partition]
  | cons c cs ih =>
    by_cases hsep : c = sep
    · simp [Text.partition, hsep]
    · simp [Text.partition, hsep, ih]

theorem firstAddress_append (value rest : String) :
    firstAddress (value ++ ", " ++ rest) = firstAddress value := by
  have hlist : (value ++ ", " ++ rest).toList = value.toList ++ ',' :: (' ' :: rest.toList) := by
    rw [String.toList_append, String.toList_append, List.append_assoc]
    rfl
  unfold firstAddress
  rw [hlist, partition_append_fst]

theorem find_cons (name value key : String) (rest : Headers) :
    Headers.find ((name, value) :: rest) key =
      if name = key then some value else Headers.find rest key := by
  unfold Headers.find
  by_cases h : name = key
  · simp [h]
  · simp [h]

/-- The first address after the proxy is the one that the client named, if it named one. -/
theorem firstAddress_forwarded {peer : String} (hpeer : firstAddress peer = peer)
    (headers : Headers) : firstAddress (addForwardedFor peer headers) =
      ((headers.find "x-forwarded-for").map firstAddress).getD peer := by
  induction headers with
  | nil => exact hpeer
  | cons x rest ih =>
    obtain ⟨name, value⟩ := x
    rw [find_cons, addForwardedFor]
    by_cases h : name = "x-forwarded-for"
    · rw [if_pos h, if_pos h, firstAddress_append]
      rfl
    · rw [if_neg h, if_neg h]
      exact ih

theorem addForwardedFor_ne {peer : String} (hpeer : peer ≠ "") (headers : Headers) :
    addForwardedFor peer headers ≠ "" := by
  induction headers with
  | nil => exact hpeer
  | cons x rest ih =>
    obtain ⟨name, value⟩ := x
    rw [addForwardedFor]
    by_cases h : name = "x-forwarded-for"
    · rw [if_pos h]
      intro heq
      have hlist := congrArg String.toList heq
      simp at hlist
    · rw [if_neg h]
      exact ih

/-- The address under which the application knows the client of a request of the peer. -/
theorem clientIp_received {via : Via} {peer : String} (hpeer : firstAddress peer = peer)
    (hne : peer ≠ "") (headers : Headers) :
    clientIp (received via peer headers).1 (received via peer headers).2 =
      some (named via peer headers) := by
  cases via with
  | direct =>
    show clientIp headers (some peer) = _
    unfold clientIp named
    cases headers.nonempty "x-forwarded-for" with
    | none => rfl
    | some value => rfl
  | proxy address =>
    have hfind : Headers.nonempty (proxied peer headers) "x-forwarded-for" =
        some (addForwardedFor peer headers) := by
      unfold Headers.nonempty proxied
      rw [find_cons, if_neg (by decide), find_cons, if_pos rfl]
      simp [truthy, addForwardedFor_ne hne]
    show clientIp (proxied peer headers) (some address) = _
    unfold clientIp
    rw [hfind]
    exact congrArg some (firstAddress_forwarded hpeer headers)

/-- The request identifier is not read off the clock. -/
theorem requestId_ok {w : World} {headers : Headers} {id : String} {s' : State}
    (h : runM env (requestId headers) (w, []) = (.ok id, s')) :
    ∃ w', s' = (w', []) ∧ w'.ticks = w.ticks := by
  unfold requestId at h
  cases hheader : headers.nonempty "x-request-id" with
  | some x =>
    rw [hheader] at h
    exact ⟨w, (congrArg Prod.snd h).symm, rfl⟩
  | none =>
    rw [hheader] at h
    exact ⟨_, (congrArg Prod.snd h).symm, rfl⟩

theorem resolveFromHeader_ok {headers : Headers} {t u : Option Uuid} {s s' : State}
    (h : runM env (resolveFromHeader env headers) s = (.ok (t, u), s')) : u = none := by
  unfold resolveFromHeader at h
  cases htenant : headers.nonempty (env.lower env.settings.tenantHeader) with
  | none =>
    rw [htenant] at h
    cases h
    rfl
  | some raw =>
    rw [htenant] at h
    obtain ⟨t', s₁, -, hret⟩ := Prog.run_bind_eq_ok h
    cases hret
    rfl

/-- Without a valid token no user is resolved. -/
theorem resolveIdentity_anonymous {w w₁ : World} {headers : Headers} {t u : Option Uuid}
    {s' : State} (hanon : Anonymous env w headers) (hw₁ : w₁.ticks = w.ticks)
    (h : runM env (resolveIdentity env headers) (w₁, []) = (.ok (t, u), s')) : u = none := by
  unfold resolveIdentity at h
  cases hbearer : bearerPart env ((headers.find "authorization").getD "") with
  | none =>
    rw [hbearer] at h
    exact resolveFromHeader_ok h
  | some token =>
    rw [hbearer] at h
    obtain ⟨r, s₁, hdecode, hrest⟩ := Prog.run_bind_eq_ok h
    cases r with
    | error message => exact resolveFromHeader_ok hrest
    | ok p =>
      have hvalid := (decodeToken_ok hdecode).1
      rw [hw₁] at hvalid
      exact absurd hvalid (hanon token hbearer p)

/-- The context of an anonymous request has its client address and no user. -/
theorem requestContext_anonymous {w : World} {headers : Headers} {client : Option String}
    {rc : RequestContext} {s' : State} (hanon : Anonymous env w headers)
    (h : runM env (requestContext env headers client) (w, []) = (.ok rc, s')) :
    rc.userId = none ∧ rc.ipAddress = clientIp headers client := by
  unfold requestContext at h
  obtain ⟨id, s₁, hid, h⟩ := Prog.run_bind_eq_ok h
  obtain ⟨⟨tenantId, userId⟩, s₂, hresolve, hret⟩ := Prog.run_bind_eq_ok h
  obtain ⟨w₁, rfl, hw₁⟩ := requestId_ok hid
  have huser := resolveIdentity_anonymous hanon hw₁ hresolve
  have hrc := Except.ok.inj (congrArg Prod.fst hret)
  rw [← hrc]
  exact ⟨huser, rfl⟩

/-- The identity under which an anonymous request of the peer is counted. -/
theorem rateIdentity_anonymous {rc : RequestContext} {address : String}
    (huser : rc.userId = none) (hip : rc.ipAddress = some address) :
    rateIdentity rc = addressIdentity address := by
  unfold rateIdentity
  rw [huser, hip]
  rfl

/-! ## The requests of one peer -/

section Peer

/-- Requests without a valid token that reach the application from one network peer, each in
a world of its own, with the contexts that the middleware gives them. -/
structure FromPeer (env : Env) (peer : String) (via : ι → Via) (headers : ι → Headers)
    (context : ι → RequestContext) : Prop where
  address : firstAddress peer = peer ∧ peer ≠ ""
  arrive : ∀ i, ∃ w s', Anonymous env w (received (via i) peer (headers i)).1 ∧
    runM env (requestContext env (received (via i) peer (headers i)).1
      (received (via i) peer (headers i)).2) (w, []) = (.ok (context i), s')

variable {peer : String} {via : ι → Via} {headers : ι → Headers} {context : ι → RequestContext}

theorem FromPeer.identity (h : FromPeer env peer via headers context) (i : ι) :
    rateIdentity (context i) = addressIdentity (named (via i) peer (headers i)) := by
  obtain ⟨w, s', hanon, hrun⟩ := h.arrive i
  obtain ⟨huser, hip⟩ := requestContext_anonymous hanon hrun
  rw [clientIp_received h.address.1 h.address.2] at hip
  exact rateIdentity_anonymous huser hip

/-- In every run of the calls of one limiter, no window admits more than its limit. -/
def AdmitsUpToLimit [Fintype ι] [DecidableEq ι] (env : Env) (path identity : String)
    (spec : Nat × Nat) (calls : ι → RateTask path identity) : Prop :=
  ∀ (w₀ : World) (P : RatePool ι),
    w₀.redisAt (env.clock w₀.ticks) (.rate path identity) = none →
    Reach (watching env (.rate path identity)) ExpireRuns (RatePool.start env spec w₀ calls) P →
    ∀ n, (P.admitted.filter fun i => P.window i = n).card ≤ spec.1

end Peer

/-! ## Two logins through the proxy -/

namespace PeerExample

def platform : Env := Env.reference { redisUrl := some "redis" }

/-- Requests with this `X-Forwarded-For` header, or without. -/
def headers : Option String → Headers
  | some value => [("x-request-id", "r"), ("x-forwarded-for", value)]
  | none => [("x-request-id", "r")]

def address : String := "10.0.0.1"

def via : Via := .proxy "127.0.0.1"

def context (value : Option String) : RequestContext where
  requestId := "r"
  ipAddress := clientIp (received via address (headers value)).1
    (received via address (headers value)).2

/-- The context of a request without token and tenant header. -/
theorem requestContext_bare {h : Headers} {client : Option String} {w : World}
    (hid : h.nonempty "x-request-id" = some "r")
    (hauth : bearerPart platform ((h.find "authorization").getD "") = none)
    (htenant : h.nonempty (platform.lower platform.settings.tenantHeader) = none) :
    runM platform (requestContext platform h client) (w, []) =
      (.ok { requestId := "r", ipAddress := clientIp h client }, (w, [])) := by
  have hrequest : runM platform (requestId h) (w, []) = (.ok "r", (w, [])) := by
    unfold requestId
    rw [hid]
    rfl
  have hresolve : runM platform (resolveIdentity platform h) (w, []) =
      (.ok (none, none), (w, [])) := by
    unfold resolveIdentity resolveFromHeader
    rw [hauth, htenant]
    rfl
  unfold requestContext
  rw [runM_bind_ok hrequest, runM_bind_ok hresolve]
  rfl

/-- What the application receives carries neither a token nor a tenant. -/
theorem bare (value : Option String) :
    (received via address (headers value)).1.nonempty "x-request-id" = some "r" ∧
      (received via address (headers value)).1.find "authorization" = none ∧
      (received via address (headers value)).1.find "x-tenant-id" = none := by
  cases value with
  | none => decide +kernel
  | some value =>
    refine ⟨?_, ?_, ?_⟩
    · simp [received, via, proxied, headers, Headers.nonempty, Headers.find, truthy]
    · simp [received, via, proxied, headers, Headers.find]
    · simp [received, via, proxied, headers, Headers.find]

theorem fromPeer {κ : Type} (values : κ → Option String) :
    FromPeer platform address (fun _ => via) (fun i => headers (values i))
      fun i => context (values i) where
  address := by decide +kernel
  arrive i := by
    obtain ⟨hid, hauth, htenant⟩ := bare (values i)
    have hbearer : bearerPart platform (((received via address (headers (values i))).1.find
        "authorization").getD "") = none := by
      rw [hauth]
      decide +kernel
    have hlower : platform.lower platform.settings.tenantHeader = "x-tenant-id" := by
      decide +kernel
    refine ⟨World.fresh 0 fun _ => [], _, ?_, requestContext_bare hid hbearer ?_⟩
    · intro token htoken
      rw [hbearer] at htoken
      cases htoken
    · rw [hlower, Headers.nonempty, htenant]
      decide +kernel

end PeerExample

end LmsBackend
