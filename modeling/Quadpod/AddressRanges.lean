import Mathlib.Algebra.Group.Nat.Defs
import Quadpod.SafeFetch

/-!
# Ranges of addresses

The ranges `is_forbidden_ip` documents, as prefixes of the numbers addresses
are.  The code tests for them octet by octet and group by group, with masks, and
reads IPv4 addresses out of IPv6 ones.
-/

/-! ## Masks -/

/-- Under a mask of leading bits, words agree when their leading bits do. -/
theorem Nat.and_mask_eq_iff
    {word : Nat} (network low high : Nat) (fits : word < 2 ^ (low + high)) :
    word &&& (2 ^ high - 1) <<< low = network <<< low ↔
      word >>> low = network := by
  have masked : (word &&& (2 ^ high - 1) <<< low) >>> low = word >>> low := by
    have below : word >>> low < 2 ^ high := by
      rw [Nat.shiftRight_eq_div_pow]
      exact Nat.div_lt_of_lt_mul (by rwa [← Nat.pow_add])
    rw [Nat.shiftRight_and_distrib, Nat.shiftLeft_shiftRight,
      Nat.and_two_pow_sub_one_eq_mod, Nat.mod_eq_of_lt below]
  constructor
  · intro same
    rw [← masked, same, Nat.shiftLeft_shiftRight]
  · rintro rfl
    apply Nat.eq_of_testBit_eq
    intro bit
    rw [Nat.testBit_and, Nat.testBit_shiftLeft, Nat.testBit_shiftLeft]
    by_cases isHigh : low ≤ bit
    · have same := congrArg (Nat.testBit · (bit - low)) masked
      simp only [Nat.testBit_shiftRight, Nat.testBit_and,
        Nat.testBit_shiftLeft, Nat.add_sub_cancel' isHigh] at same ⊢
      simpa [isHigh] using same
    · simp [isHigh]

/-! ## Addresses as numbers -/

/-- `u32::from`, of an IPv4 address. -/
def Ipv4Addr.toNat (ip : Ipv4Addr) : Nat :=
  ((ip.a.toNat * 256 + ip.b.toNat) * 256 + ip.c.toNat) * 256 + ip.d.toNat

/-- `u128::from`, of an IPv6 address. -/
def Ipv6Addr.toNat (ip : Ipv6Addr) : Nat :=
  ip.segments.foldl (fun number group => number * 65536 + group.toNat) 0

/-- An address of a range, given by a network and the length of its prefix. -/
def Ipv4Addr.Within (ip network : Ipv4Addr) (length : Nat) : Prop :=
  ip.toNat >>> (32 - length) = network.toNat >>> (32 - length)

/-- An address of a range, given by a network and the length of its prefix. -/
def Ipv6Addr.Within (ip network : Ipv6Addr) (length : Nat) : Prop :=
  ip.toNat >>> (128 - length) = network.toNat >>> (128 - length)

theorem Ipv4Addr.within_iff
    {ip network : Ipv4Addr} {length : Nat} (leading : Nat)
    (isLeading : network.toNat >>> (32 - length) = leading) :
    ip.Within network length ↔ ip.toNat / 2 ^ (32 - length) = leading := by
  rw [Within, isLeading, Nat.shiftRight_eq_div_pow]

theorem Ipv6Addr.within_iff
    {ip network : Ipv6Addr} {length : Nat} (leading : Nat)
    (isLeading : network.toNat >>> (128 - length) = leading) :
    ip.Within network length ↔ ip.toNat / 2 ^ (128 - length) = leading := by
  rw [Within, isLeading, Nat.shiftRight_eq_div_pow]

theorem Ipv4Addr.toNat_injective : Function.Injective Ipv4Addr.toNat := by
  intro first second same
  obtain ⟨a, b, c, d⟩ := first
  obtain ⟨a', b', c', d'⟩ := second
  unfold toNat at same
  dsimp only at same
  have := a.toNat_lt
  have := b.toNat_lt
  have := c.toNat_lt
  have := d.toNat_lt
  have := a'.toNat_lt
  have := b'.toNat_lt
  have := c'.toNat_lt
  have := d'.toNat_lt
  rw [Ipv4Addr.mk.injEq]
  simp only [← UInt8.toNat_inj]
  omega

/-- The groups of an address. -/
theorem Ipv6Addr.exists_groups (ip : Ipv6Addr) :
    ∃ s₀ s₁ s₂ s₃ s₄ s₅ s₆ s₇,
      ip.segments = [s₀, s₁, s₂, s₃, s₄, s₅, s₆, s₇] := by
  obtain ⟨segments, eight⟩ := ip
  match segments, eight with
  | [s₀, s₁, s₂, s₃, s₄, s₅, s₆, s₇], _ =>
      exact ⟨s₀, s₁, s₂, s₃, s₄, s₅, s₆, s₇, rfl⟩

namespace Quadpod

/-! ## The ranges -/

/-- The ranges of IPv4 addresses no fetch may reach. -/
inductive ForbiddenIpv4 (ip : Ipv4Addr) : Prop where
  | loopback (within : ip.Within ⟨127, 0, 0, 0⟩ 8)
  | unspecified (within : ip.Within ⟨0, 0, 0, 0⟩ 32)
  | private10 (within : ip.Within ⟨10, 0, 0, 0⟩ 8)
  | private172 (within : ip.Within ⟨172, 16, 0, 0⟩ 12)
  | private192 (within : ip.Within ⟨192, 168, 0, 0⟩ 16)
  | linkLocal (within : ip.Within ⟨169, 254, 0, 0⟩ 16)
  | sharedSpace (within : ip.Within ⟨100, 64, 0, 0⟩ 10)

/-- An IPv6 address whose last 32 bits are a forbidden IPv4 address. -/
def EmbedsForbidden (ip : Ipv6Addr) : Prop :=
  ∃ embedded : Ipv4Addr,
    embedded.toNat = ip.toNat % 2 ^ 32 ∧ ForbiddenIpv4 embedded

/-- `::` -/
def unspecifiedIpv6 : Ipv6Addr := ⟨[0, 0, 0, 0, 0, 0, 0, 0], rfl⟩

/-- `::1` -/
def loopbackIpv6 : Ipv6Addr := ⟨[0, 0, 0, 0, 0, 0, 0, 1], rfl⟩

/-- The ranges of IPv6 addresses no fetch may reach. -/
inductive ForbiddenIpv6 (ip : Ipv6Addr) : Prop where
  | unspecified (within : ip.Within unspecifiedIpv6 128)
  | loopback (within : ip.Within loopbackIpv6 128)
  | uniqueLocal (within : ip.Within ⟨[0xfc00, 0, 0, 0, 0, 0, 0, 0], rfl⟩ 7)
  | linkLocal (within : ip.Within ⟨[0xfe80, 0, 0, 0, 0, 0, 0, 0], rfl⟩ 10)
  | mapped (within : ip.Within ⟨[0, 0, 0, 0, 0, 0xffff, 0, 0], rfl⟩ 96)
      (embeds : EmbedsForbidden ip)
  | compatible (within : ip.Within unspecifiedIpv6 96)
      (isNeither : ip ≠ unspecifiedIpv6 ∧ ip ≠ loopbackIpv6)
      (embeds : EmbedsForbidden ip)

/-- The addresses no fetch may reach. -/
inductive ForbiddenIp : IpAddr → Prop where
  | v4 {ip : Ipv4Addr} (forbidden : ForbiddenIpv4 ip) : ForbiddenIp (.v4 ip)
  | v6 {ip : Ipv6Addr} (forbidden : ForbiddenIpv6 ip) : ForbiddenIp (.v6 ip)

/-! ## IPv4 -/

theorem isCgnat_iff (ip : Ipv4Addr) :
    isCgnat ip = true ↔ ip.a.toNat = 100 ∧ ip.b.toNat / 64 = 1 := by
  have mask := Nat.and_mask_eq_iff 1 6 2 ip.b.toNat_lt
  rw [Nat.shiftRight_eq_div_pow] at mask
  rw [isCgnat, Bool.and_eq_true, beq_iff_eq, beq_iff_eq, ← UInt8.toNat_inj,
    ← UInt8.toNat_inj, UInt8.toNat_and]
  exact and_congr Iff.rfl mask

/-- The ranges of IPv4 addresses, octet by octet. -/
theorem forbiddenIpv4_iff (ip : Ipv4Addr) :
    ForbiddenIpv4 ip ↔
      ip.a.toNat = 127 ∨
      (ip.a.toNat = 0 ∧ ip.b.toNat = 0 ∧ ip.c.toNat = 0 ∧ ip.d.toNat = 0) ∨
      ip.a.toNat = 10 ∨
      (ip.a.toNat = 172 ∧ 16 ≤ ip.b.toNat ∧ ip.b.toNat ≤ 31) ∨
      (ip.a.toNat = 192 ∧ ip.b.toNat = 168) ∨
      (ip.a.toNat = 169 ∧ ip.b.toNat = 254) ∨
      (ip.a.toNat = 100 ∧ ip.b.toNat / 64 = 1) := by
  have a := ip.a.toNat_lt
  have b := ip.b.toNat_lt
  have c := ip.c.toNat_lt
  have d := ip.d.toNat_lt
  have number :
      ip.toNat =
        ((ip.a.toNat * 256 + ip.b.toNat) * 256 + ip.c.toNat) * 256 +
          ip.d.toNat :=
    rfl
  have loopback : ip.Within ⟨127, 0, 0, 0⟩ 8 ↔ ip.a.toNat = 127 := by
    rw [Ipv4Addr.within_iff 127 rfl]
    omega
  have unspecified :
      ip.Within ⟨0, 0, 0, 0⟩ 32 ↔
        ip.a.toNat = 0 ∧ ip.b.toNat = 0 ∧ ip.c.toNat = 0 ∧
          ip.d.toNat = 0 := by
    rw [Ipv4Addr.within_iff 0 rfl]
    omega
  have private10 : ip.Within ⟨10, 0, 0, 0⟩ 8 ↔ ip.a.toNat = 10 := by
    rw [Ipv4Addr.within_iff 10 rfl]
    omega
  have private172 :
      ip.Within ⟨172, 16, 0, 0⟩ 12 ↔
        ip.a.toNat = 172 ∧ 16 ≤ ip.b.toNat ∧ ip.b.toNat ≤ 31 := by
    rw [Ipv4Addr.within_iff 2753 rfl]
    omega
  have private192 :
      ip.Within ⟨192, 168, 0, 0⟩ 16 ↔
        ip.a.toNat = 192 ∧ ip.b.toNat = 168 := by
    rw [Ipv4Addr.within_iff 49320 rfl]
    omega
  have linkLocal :
      ip.Within ⟨169, 254, 0, 0⟩ 16 ↔
        ip.a.toNat = 169 ∧ ip.b.toNat = 254 := by
    rw [Ipv4Addr.within_iff 43518 rfl]
    omega
  have sharedSpace :
      ip.Within ⟨100, 64, 0, 0⟩ 10 ↔
        ip.a.toNat = 100 ∧ ip.b.toNat / 64 = 1 := by
    rw [Ipv4Addr.within_iff 401 rfl]
    omega
  rw [← loopback, ← unspecified, ← private10, ← private172, ← private192,
    ← linkLocal, ← sharedSpace]
  constructor
  · intro forbidden
    cases forbidden with
    | loopback within => exact Or.inl within
    | unspecified within => exact Or.inr (Or.inl within)
    | private10 within => exact Or.inr (Or.inr (Or.inl within))
    | private172 within => exact Or.inr (Or.inr (Or.inr (Or.inl within)))
    | private192 within =>
        exact Or.inr (Or.inr (Or.inr (Or.inr (Or.inl within))))
    | linkLocal within =>
        exact Or.inr (Or.inr (Or.inr (Or.inr (Or.inr (Or.inl within)))))
    | sharedSpace within =>
        exact Or.inr (Or.inr (Or.inr (Or.inr (Or.inr (Or.inr within)))))
  · rintro (within | within | within | within | within | within | within)
    · exact .loopback within
    · exact .unspecified within
    · exact .private10 within
    · exact .private172 within
    · exact .private192 within
    · exact .linkLocal within
    · exact .sharedSpace within

theorem isForbiddenIpv4_iff (ip : Ipv4Addr) :
    isForbiddenIpv4 ip = true ↔ ForbiddenIpv4 ip := by
  obtain ⟨a, b, c, d⟩ := ip
  rw [forbiddenIpv4_iff, isForbiddenIpv4]
  simp only [Bool.or_eq_true, beq_iff_eq, isCgnat_iff, isPrivate, isLinkLocal,
    Bool.and_eq_true, decide_eq_true_eq, Ipv4Addr.mk.injEq, ← UInt8.toNat_inj,
    UInt8.le_iff_toNat_le, UInt8.reduceToNat, or_assoc, and_assoc]

/-! ## IPv6 -/

theorem isUniqueLocal_iff (first : UInt16) :
    isUniqueLocal first = true ↔ first.toNat / 2 ^ 9 = 126 := by
  have mask := Nat.and_mask_eq_iff 126 9 7 first.toNat_lt
  rw [Nat.shiftRight_eq_div_pow] at mask
  rw [isUniqueLocal, beq_iff_eq, ← UInt16.toNat_inj, UInt16.toNat_and]
  exact mask

theorem isLinkLocalV6_iff (first : UInt16) :
    isLinkLocalV6 first = true ↔ first.toNat / 2 ^ 6 = 1018 := by
  have mask := Nat.and_mask_eq_iff 1018 6 10 first.toNat_lt
  rw [Nat.shiftRight_eq_div_pow] at mask
  rw [isLinkLocalV6, beq_iff_eq, ← UInt16.toNat_inj, UInt16.toNat_and]
  exact mask

section Groups

variable {ip : Ipv6Addr} {s₀ s₁ s₂ s₃ s₄ s₅ s₆ s₇ : UInt16}
  (isGroups : ip.segments = [s₀, s₁, s₂, s₃, s₄, s₅, s₆, s₇])
include isGroups

theorem toNat_of_groups :
    ip.toNat =
      ((((((s₀.toNat * 65536 + s₁.toNat) * 65536 + s₂.toNat) * 65536 +
        s₃.toNat) * 65536 + s₄.toNat) * 65536 + s₅.toNat) * 65536 +
          s₆.toNat) * 65536 + s₇.toNat := by
  rw [Ipv6Addr.toNat, isGroups]
  simp only [List.foldl_cons, List.foldl_nil]
  omega

/-- The first 96 bits of an address are six groups. -/
theorem leading_of_groups :
    ip.toNat / 2 ^ 32 =
      ((((s₀.toNat * 65536 + s₁.toNat) * 65536 + s₂.toNat) * 65536 +
        s₃.toNat) * 65536 + s₄.toNat) * 65536 + s₅.toNat := by
  have low := s₆.toNat_lt
  have lowest := s₇.toNat_lt
  rw [toNat_of_groups isGroups]
  omega

theorem within_mapped_iff :
    ip.Within ⟨[0, 0, 0, 0, 0, 0xffff, 0, 0], rfl⟩ 96 ↔
      s₀ = 0 ∧ s₁ = 0 ∧ s₂ = 0 ∧ s₃ = 0 ∧ s₄ = 0 ∧ s₅ = 0xffff := by
  rw [Ipv6Addr.within_iff 65535 rfl, leading_of_groups isGroups]
  simp only [← UInt16.toNat_inj, UInt16.reduceToNat]
  have fits := s₅.toNat_lt
  omega

theorem within_compatible_iff :
    ip.Within unspecifiedIpv6 96 ↔
      s₀ = 0 ∧ s₁ = 0 ∧ s₂ = 0 ∧ s₃ = 0 ∧ s₄ = 0 ∧ s₅ = 0 := by
  rw [Ipv6Addr.within_iff 0 rfl, leading_of_groups isGroups]
  simp only [← UInt16.toNat_inj, UInt16.reduceToNat]
  omega

theorem within_uniqueLocal_iff :
    ip.Within ⟨[0xfc00, 0, 0, 0, 0, 0, 0, 0], rfl⟩ 7 ↔
      isUniqueLocal s₀ = true := by
  rw [Ipv6Addr.within_iff 126 rfl, isUniqueLocal_iff,
    toNat_of_groups isGroups]
  have := s₁.toNat_lt
  have := s₂.toNat_lt
  have := s₃.toNat_lt
  have := s₄.toNat_lt
  have := s₅.toNat_lt
  have := s₆.toNat_lt
  have := s₇.toNat_lt
  omega

theorem within_linkLocal_iff :
    ip.Within ⟨[0xfe80, 0, 0, 0, 0, 0, 0, 0], rfl⟩ 10 ↔
      isLinkLocalV6 s₀ = true := by
  rw [Ipv6Addr.within_iff 1018 rfl, isLinkLocalV6_iff,
    toNat_of_groups isGroups]
  have := s₁.toNat_lt
  have := s₂.toNat_lt
  have := s₃.toNat_lt
  have := s₄.toNat_lt
  have := s₅.toNat_lt
  have := s₆.toNat_lt
  have := s₇.toNat_lt
  omega

theorem eq_unspecifiedIpv6_iff :
    ip = unspecifiedIpv6 ↔
      s₀ = 0 ∧ s₁ = 0 ∧ s₂ = 0 ∧ s₃ = 0 ∧ s₄ = 0 ∧ s₅ = 0 ∧ s₆ = 0 ∧
        s₇ = 0 := by
  obtain ⟨segments, eight⟩ := ip
  dsimp only at isGroups
  subst isGroups
  simp [unspecifiedIpv6]

theorem eq_loopbackIpv6_iff :
    ip = loopbackIpv6 ↔
      s₀ = 0 ∧ s₁ = 0 ∧ s₂ = 0 ∧ s₃ = 0 ∧ s₄ = 0 ∧ s₅ = 0 ∧ s₆ = 0 ∧
        s₇ = 1 := by
  obtain ⟨segments, eight⟩ := ip
  dsimp only at isGroups
  subst isGroups
  simp [loopbackIpv6]

theorem within_unspecified_iff :
    ip.Within unspecifiedIpv6 128 ↔ ip = unspecifiedIpv6 := by
  rw [eq_unspecifiedIpv6_iff isGroups, Ipv6Addr.within_iff 0 rfl,
    toNat_of_groups isGroups]
  simp only [← UInt16.toNat_inj, UInt16.reduceToNat]
  omega

theorem within_loopback_iff :
    ip.Within loopbackIpv6 128 ↔ ip = loopbackIpv6 := by
  rw [eq_loopbackIpv6_iff isGroups, Ipv6Addr.within_iff 1 rfl,
    toNat_of_groups isGroups]
  simp only [← UInt16.toNat_inj, UInt16.reduceToNat]
  omega

/-- The IPv4 address the code reads out is the last 32 bits. -/
theorem toNat_embeddedIpv4 :
    (embeddedIpv4 s₆ s₇).toNat = ip.toNat % 2 ^ 32 := by
  have high := s₆.toNat_lt
  have low := s₇.toNat_lt
  rw [toNat_of_groups isGroups]
  simp only [embeddedIpv4, Ipv4Addr.toNat, UInt16.toNat_toUInt8,
    UInt16.toNat_shiftRight, UInt16.reduceToNat, Nat.shiftRight_eq_div_pow,
    Nat.reduceMod, Nat.reducePow]
  omega

theorem embedsForbidden_iff :
    EmbedsForbidden ip ↔ isForbiddenIpv4 (embeddedIpv4 s₆ s₇) = true := by
  rw [isForbiddenIpv4_iff]
  constructor
  · rintro ⟨embedded, isEmbedded, forbidden⟩
    rw [← toNat_embeddedIpv4 isGroups] at isEmbedded
    rw [← Ipv4Addr.toNat_injective isEmbedded]
    exact forbidden
  · intro forbidden
    exact ⟨_, toNat_embeddedIpv4 isGroups, forbidden⟩

/-- The ranges of IPv6 addresses, group by group. -/
theorem forbiddenIpv6_iff :
    ForbiddenIpv6 ip ↔
      ip = unspecifiedIpv6 ∨ ip = loopbackIpv6 ∨
      isUniqueLocal s₀ = true ∨ isLinkLocalV6 s₀ = true ∨
      ((s₀ = 0 ∧ s₁ = 0 ∧ s₂ = 0 ∧ s₃ = 0 ∧ s₄ = 0 ∧ s₅ = 0xffff) ∧
        isForbiddenIpv4 (embeddedIpv4 s₆ s₇) = true) ∨
      ((s₀ = 0 ∧ s₁ = 0 ∧ s₂ = 0 ∧ s₃ = 0 ∧ s₄ = 0 ∧ s₅ = 0) ∧
        (ip ≠ unspecifiedIpv6 ∧ ip ≠ loopbackIpv6) ∧
        isForbiddenIpv4 (embeddedIpv4 s₆ s₇) = true) := by
  rw [← embedsForbidden_iff isGroups, ← within_mapped_iff isGroups,
    ← within_compatible_iff isGroups, ← within_uniqueLocal_iff isGroups,
    ← within_linkLocal_iff isGroups]
  constructor
  · intro forbidden
    cases forbidden with
    | unspecified within =>
        exact Or.inl ((within_unspecified_iff isGroups).mp within)
    | loopback within =>
        exact Or.inr (Or.inl ((within_loopback_iff isGroups).mp within))
    | uniqueLocal within =>
        exact Or.inr (Or.inr (Or.inl within))
    | linkLocal within =>
        exact Or.inr (Or.inr (Or.inr (Or.inl within)))
    | mapped within embeds =>
        exact Or.inr (Or.inr (Or.inr (Or.inr (Or.inl ⟨within, embeds⟩))))
    | compatible within isNeither embeds =>
        exact Or.inr (Or.inr (Or.inr (Or.inr (Or.inr
          ⟨within, isNeither, embeds⟩))))
  · rintro (same | same | within | within | ⟨within, embeds⟩ |
      ⟨within, isNeither, embeds⟩)
    · exact .unspecified ((within_unspecified_iff isGroups).mpr same)
    · exact .loopback ((within_loopback_iff isGroups).mpr same)
    · exact .uniqueLocal within
    · exact .linkLocal within
    · exact .mapped within embeds
    · exact .compatible within isNeither embeds

end Groups

theorem isForbiddenIpv6_iff (ip : Ipv6Addr) :
    isForbiddenIpv6 ip = true ↔ ForbiddenIpv6 ip := by
  obtain ⟨s₀, s₁, s₂, s₃, s₄, s₅, s₆, s₇, isGroups⟩ := ip.exists_groups
  rw [forbiddenIpv6_iff isGroups, ne_eq, ne_eq,
    eq_unspecifiedIpv6_iff isGroups, eq_loopbackIpv6_iff isGroups,
    isForbiddenIpv6, isGroups]
  have notUniqueLocal : isUniqueLocal 0 = false := by decide
  have notLinkLocal : isLinkLocalV6 0 = false := by decide
  split
  · next high low isMapped =>
      simp only [List.cons.injEq, and_true] at isMapped
      obtain ⟨rfl, rfl, rfl, rfl, rfl, rfl, rfl, rfl⟩ := isMapped
      simp [notUniqueLocal, notLinkLocal]
  · next high low isCompatible =>
      simp only [List.cons.injEq, and_true] at isCompatible
      obtain ⟨rfl, rfl, rfl, rfl, rfl, rfl, rfl, rfl⟩ := isCompatible
      by_cases isSpecial : s₆ = 0 ∧ (s₇ = 0 ∨ s₇ = 1)
      · rw [if_pos isSpecial]
        obtain ⟨rfl, rfl | rfl⟩ := isSpecial
        · exact iff_of_true rfl (by simp)
        · exact iff_of_true rfl (by simp)
      · rw [if_neg isSpecial]
        rw [not_and_or, not_or] at isSpecial
        simp only [notUniqueLocal, notLinkLocal, true_and, and_true]
        tauto
  · next first rest notMapped notCompatible isFirst =>
      obtain ⟨rfl, rfl⟩ := List.cons.inj isFirst
      have outsideMapped :
          ¬ (s₀ = 0 ∧ s₁ = 0 ∧ s₂ = 0 ∧ s₃ = 0 ∧ s₄ = 0 ∧ s₅ = 0xffff) := by
        rintro ⟨rfl, rfl, rfl, rfl, rfl, rfl⟩
        exact notMapped s₆ s₇ rfl rfl
      have outsideCompatible :
          ¬ (s₀ = 0 ∧ s₁ = 0 ∧ s₂ = 0 ∧ s₃ = 0 ∧ s₄ = 0 ∧ s₅ = 0) := by
        rintro ⟨rfl, rfl, rfl, rfl, rfl, rfl⟩
        exact notCompatible s₆ s₇ rfl rfl
      rw [Bool.or_eq_true]
      constructor
      · rintro (unique | linkLocal)
        · exact Or.inr (Or.inr (Or.inl unique))
        · exact Or.inr (Or.inr (Or.inr (Or.inl linkLocal)))
      · rintro (⟨isZero₀, isZero₁, isZero₂, isZero₃, isZero₄, isZero₅, _⟩ |
          ⟨isZero₀, isZero₁, isZero₂, isZero₃, isZero₄, isZero₅, _⟩ |
            unique | linkLocal | ⟨isMapped, _⟩ | ⟨isCompatible, _⟩)
        · exact absurd ⟨isZero₀, isZero₁, isZero₂, isZero₃, isZero₄, isZero₅⟩
            outsideCompatible
        · exact absurd ⟨isZero₀, isZero₁, isZero₂, isZero₃, isZero₄, isZero₅⟩
            outsideCompatible
        · exact Or.inl unique
        · exact Or.inr linkLocal
        · exact absurd isMapped outsideMapped
        · exact absurd isCompatible outsideCompatible
  · next isNil =>
      cases isNil

/--
An address is forbidden exactly if it lies in one of the ranges, or is an IPv6
address that embeds an IPv4 address that does.
-/
theorem is_forbidden_ip_exact (ip : IpAddr) :
    isForbiddenIp ip = true ↔ ForbiddenIp ip := by
  constructor
  · intro holds
    cases ip with
    | v4 ip => exact .v4 ((isForbiddenIpv4_iff ip).mp holds)
    | v6 ip => exact .v6 ((isForbiddenIpv6_iff ip).mp holds)
  · intro forbidden
    cases forbidden with
    | v4 inRange => exact (isForbiddenIpv4_iff _).mpr inRange
    | v6 inRange => exact (isForbiddenIpv6_iff _).mpr inRange

end Quadpod
