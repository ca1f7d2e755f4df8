import AccessRegistry.Proofs.Authentication

/-!
# AccessRegistry.Proofs.Expiry

When a lifetime is over. Both times are cut down to whole milliseconds, and the lifetime is added
in 64 bits. Neither does harm: within the represented years the sum decides as it would without
bounds, no token is refused before its time, and none is accepted for a millisecond too long.

* `Instant.IsRegular` — a represented time outside of leap seconds.
* `ExpiresAfter`      — what it means to be right about a lifetime at every such time.
* `expires_exactly`   — tokens and identities are, and an expired token stays so.

The nanoseconds of a leap second run on past its end, so that a time in it may have more
milliseconds than a later one.
-/

namespace AccessRegistry

open AccessRegistry.Action World Tables

namespace Instant

def nanosPerMilli : Int := 1000000

structure IsRegular (t : Instant) : Prop where
  inRange : t.inRange = true
  noLeap : t.nanos < nanosPerSecond

instance (t : Instant) : Decidable t.IsRegular :=
  decidable_of_iff (t.inRange = true ∧ t.nanos < nanosPerSecond)
    ⟨fun h => ⟨h.1, h.2⟩, fun h => ⟨h.inRange, h.noLeap⟩⟩

variable {t u : Instant}

/-- Whole milliseconds are rounded down, before the epoch as well. -/
theorem millis_eq (t : Instant) : t.millis = t.totalNanos / nanosPerMilli := by
  simp only [millis, totalNanos, nanosPerMilli, nanosPerSecond]
  omega

theorem IsRegular.millis_bounds (h : t.IsRegular) :
    -0x8000000000000000 < t.millis ∧ t.millis < 0x7FFFFFFFFFFFFFFF := by
  obtain ⟨hrange, hnanos⟩ := h
  have hfirst : firstSecond = -8334601228800 := by decide
  have hlast : lastSecond = 8210266876799 := by decide
  simp only [Instant.inRange, Bool.and_eq_true, decide_eq_true_eq, hfirst, hlast] at hrange
  simp only [millis, nanosPerSecond] at hnanos ⊢
  omega

/-- Outside of leap seconds, times are in the order of their nanoseconds. -/
theorem IsRegular.isLE_compare (ht : t.IsRegular) (hu : u.IsRegular) :
    (compare t u).isLE = true ↔ t.totalNanos ≤ u.totalNanos := by
  have htnanos := ht.noLeap
  have hunanos := hu.noLeap
  show ((compare t.seconds u.seconds).then (compare t.nanos u.nanos)).isLE = true ↔ _
  simp only [totalNanos, nanosPerSecond] at htnanos hunanos ⊢
  rcases Int.lt_trichotomy t.seconds u.seconds with hlt | heq | hgt
  · rw [Std.compare_eq_lt.2 hlt]
    simp only [Ordering.lt_then, Ordering.isLE_lt, true_iff]
    omega
  · have hself : compare u.seconds u.seconds = .eq := Std.ReflCmp.compare_self
    rw [heq, hself, Ordering.eq_then, Nat.isLE_compare]
    omega
  · rw [Std.compare_eq_gt.2 hgt]
    simp only [Ordering.gt_then, Ordering.isLE_gt, Bool.false_eq_true, false_iff]
    omega

end Instant

open Instant (IsRegular nanosPerMilli)

/-- Holding a sum within 64 bits does not change how it compares with what lies inside. -/
theorem saturatingAdd_lt_iff {a b n : Int} (hlow : -0x8000000000000000 < n)
    (hhigh : n < 0x7FFFFFFFFFFFFFFF) : saturatingAdd a b < n ↔ a + b < n := by
  unfold saturatingAdd
  omega

/-- The test says when a lifetime, in milliseconds, that began at `created` is over: in terms of
whole milliseconds exactly, never too early, less than a millisecond too late, and for good. -/
structure ExpiresAfter (created : Instant) (lifetime : Int64) (expired : Instant → Bool) :
    Prop where
  never : lifetime = neverExpires → ∀ now, expired now = false
  exact : lifetime ≠ neverExpires → ∀ now, now.IsRegular →
    (expired now = true ↔
      created.totalNanos / nanosPerMilli + lifetime.toInt < now.totalNanos / nanosPerMilli)
  notEarly : ∀ now, now.IsRegular → expired now = true →
    created.totalNanos + lifetime.toInt * nanosPerMilli < now.totalNanos
  notLate : lifetime ≠ neverExpires → ∀ now, now.IsRegular →
    created.totalNanos + (lifetime.toInt + 1) * nanosPerMilli ≤ now.totalNanos →
      expired now = true
  forGood : ∀ now later, now.IsRegular → later.IsRegular → (compare now later).isLE = true →
    expired now = true → expired later = true

section Lifetimes

variable {created now : Instant} {lifetime : Int64}

theorem lifetimeElapsed_never : lifetimeElapsed created neverExpires now = false := if_pos rfl

theorem lifetimeElapsed_iff (h : lifetime ≠ neverExpires) (hnow : now.IsRegular) :
    lifetimeElapsed created lifetime now = true ↔
      created.totalNanos / nanosPerMilli + lifetime.toInt < now.totalNanos / nanosPerMilli := by
  obtain ⟨hlow, hhigh⟩ := hnow.millis_bounds
  rw [lifetimeElapsed, if_neg h, decide_eq_true_eq, saturatingAdd_lt_iff hlow hhigh,
    Instant.millis_eq, Instant.millis_eq]

theorem lifetime_ne_of_elapsed (h : lifetimeElapsed created lifetime now = true) :
    lifetime ≠ neverExpires := by
  rintro rfl
  rw [lifetimeElapsed_never] at h
  cases h

theorem lifetimeElapsed_expiresAfter (created : Instant) (lifetime : Int64) :
    ExpiresAfter created lifetime (lifetimeElapsed created lifetime) := by
  constructor
  case never =>
    rintro rfl now
    exact lifetimeElapsed_never
  case exact =>
    intro hlife now hnow
    exact lifetimeElapsed_iff hlife hnow
  case notEarly =>
    intro now hnow hover
    have hlife := lifetime_ne_of_elapsed hover
    rw [lifetimeElapsed_iff hlife hnow] at hover
    simp only [nanosPerMilli] at hover ⊢
    omega
  case notLate =>
    intro hlife now hnow hlate
    rw [lifetimeElapsed_iff hlife hnow]
    simp only [nanosPerMilli] at hlate ⊢
    omega
  case forGood =>
    intro now later hnow hlater hle hover
    have hlife := lifetime_ne_of_elapsed hover
    rw [hnow.isLE_compare hlater] at hle
    rw [lifetimeElapsed_iff hlife hnow] at hover
    rw [lifetimeElapsed_iff hlife hlater]
    have hmillis : now.totalNanos / nanosPerMilli ≤ later.totalNanos / nanosPerMilli :=
      Int.ediv_le_ediv (by decide) hle
    omega

end Lifetimes

/-! ## Presented tokens -/

section Presented

variable {w : World} {text : String}

theorem Credentials.authenticate_expired_iff :
    (outcome answer (Credentials.authenticate text) w).1 = .ok .tokenExpired ↔
      ∃ d, w.tables.authData? text = some d ∧ d.isExpiredAt w.now = true := by
  rw [Credentials.authenticate_outcome]
  cases w.tables.authData? text with
  | none => simp
  | some d => cases hover : d.isExpiredAt w.now <;> simp [hover]

theorem Credentials.authenticate_accepted_iff {d : AuthData} :
    (outcome answer (Credentials.authenticate text) w).1 = .ok (.authenticated d) ↔
      w.tables.authData? text = some d ∧ d.isExpiredAt w.now = false := by
  rw [Credentials.authenticate_outcome]
  cases w.tables.authData? text with
  | none => simp
  | some d' =>
    simp only [Except.ok.injEq, Option.some.injEq]
    constructor
    · intro h
      cases hover : d'.isExpiredAt w.now with
      | true => simp [hover] at h
      | false =>
        simp only [hover, Bool.false_eq_true, if_false, Decision.authenticated.injEq] at h
        exact ⟨h, h ▸ hover⟩
    · rintro ⟨rfl, hlive⟩
      simp [hlive]

end Presented

/-- The identity of a token has the lifetime of its row. -/
theorem Tables.authData?_lifetime {t : Tables} {k : Token} {d : AuthData} (hk : k ∈ t.tokens)
    (hd : t.authData? k.token = some d) :
    d.createdAt = k.createdAt ∧ d.expireTime = k.expireTime := by
  have hfind : t.tokens.find? k.token = some k := Table.find?_of_mem hk
  simp only [authData?, hfind, Option.bind_eq_bind, Option.bind_some, Option.bind_eq_some_iff] at hd
  obtain ⟨app, _, group, _, domain, _, hd⟩ := hd
  cases hd
  exact ⟨rfl, rfl⟩

/-- Tokens, and the identities they stand for, expire when their lifetime is over, with respect to
unbounded sums of whole milliseconds. Once a token has been refused because it has expired, it is
never accepted again, whatever becomes of the tables, unless its time or its lifetime is changed. -/
theorem expires_exactly :
    (∀ k : Token, ExpiresAfter k.createdAt k.expireTime k.isExpiredAt) ∧
    (∀ d : AuthData, ExpiresAfter d.createdAt d.expireTime d.isExpiredAt) ∧
    ∀ (w w' : World) (k k' : Token), k ∈ w.tables.tokens → k' ∈ w'.tables.tokens →
      k'.token = k.token → k'.createdAt = k.createdAt → k'.expireTime = k.expireTime →
      w.now.IsRegular → w'.now.IsRegular → (compare w.now w'.now).isLE = true →
      (outcome answer (Credentials.authenticate k.token) w).1 = .ok .tokenExpired →
      ∀ d, (outcome answer (Credentials.authenticate k.token) w').1 ≠ .ok (.authenticated d) := by
  refine ⟨fun k => lifetimeElapsed_expiresAfter _ _,
    fun d => lifetimeElapsed_expiresAfter _ _, ?_⟩
  intro w w' k k' hk hk' htext hcreated hlife hnow hlater hle hexpired d' haccepted
  obtain ⟨d, hd, hover⟩ := Credentials.authenticate_expired_iff.1 hexpired
  obtain ⟨hd', hlive⟩ := Credentials.authenticate_accepted_iff.1 haccepted
  obtain ⟨hcreatedAt, hexpireTime⟩ := authData?_lifetime hk hd
  obtain ⟨hcreatedAt', hexpireTime'⟩ := authData?_lifetime hk' (htext ▸ hd')
  have hlater' : d.isExpiredAt w'.now = true :=
    (lifetimeElapsed_expiresAfter _ _).forGood _ _ hnow hlater hle hover
  have hsame : d'.isExpiredAt w'.now = d.isExpiredAt w'.now := by
    unfold AuthData.isExpiredAt
    rw [hcreatedAt', hexpireTime', hcreated, hlife, hcreatedAt, hexpireTime]
  rw [hsame, hlater'] at hlive
  cases hlive

/-- A token that lives for no time at all is accepted to the end of its millisecond, which here is
the last one before the epoch, and not a nanosecond longer. -/
theorem expired_at_epoch :
    let w := (fresh ⟨0, 0⟩ fun _ => "made").after
      [⟨.createToken 1 0, ⟨-1, 999000000⟩⟩, ⟨.provision "root", ⟨-2, 0⟩⟩]
    (outcome answer (Credentials.authenticate "made") { w with now := ⟨-1, 999999999⟩ }).1 =
      .ok (.authenticated ⟨1, "admin", 1, 1, 1, 0, ⟨-1, 999000000⟩⟩) ∧
    (outcome answer (Credentials.authenticate "made") { w with now := ⟨0, 0⟩ }).1 =
      .ok .tokenExpired ∧
    ∀ d, (outcome answer (Credentials.authenticate "made") { w with now := ⟨0, 1⟩ }).1 ≠
      .ok (.authenticated d) := by
  intro w
  let k : Token := ⟨"made", 1, 0, ⟨-1, 999000000⟩⟩
  have hk : k ∈ w.tables.tokens.rows := by decide +kernel
  have haccepted : (outcome answer (Credentials.authenticate "made")
      { w with now := ⟨-1, 999999999⟩ }).1 =
      .ok (.authenticated ⟨1, "admin", 1, 1, 1, 0, ⟨-1, 999000000⟩⟩) := by decide +kernel
  have hexpired : (outcome answer (Credentials.authenticate "made")
      { w with now := ⟨0, 0⟩ }).1 = .ok .tokenExpired := by decide +kernel
  clear_value w
  obtain ⟨_, _, hforGood⟩ := expires_exactly
  have hepoch : (⟨0, 0⟩ : Instant).IsRegular := by decide
  have hlater : (⟨0, 1⟩ : Instant).IsRegular := by decide
  have hle : (compare (⟨0, 0⟩ : Instant) ⟨0, 1⟩).isLE = true := by decide
  refine ⟨haccepted, hexpired, ?_⟩
  exact hforGood { w with now := ⟨0, 0⟩ } { w with now := ⟨0, 1⟩ } k k hk hk rfl rfl rfl
    hepoch hlater hle hexpired

end AccessRegistry
