import Foctet.Net.Authentication
import Foctet.Net.TryingOrder

/-! Which address is the best one, and in which order addresses are sorted. Both functions
compare ranks only: among addresses of equal rank the sort keeps the order of the list, and
the maximum is the last. -/
namespace Foctet.Net
open Foctet.Core Foctet.Lib

variable {A : Type} {S : StackAddrs A} {addrs : List A} {iface : Interface}

/-- No address has a higher rank. -/
def noneAbove (S : StackAddrs A) (addrs : List A) (iface : Interface) (rank : Nat) : Bool :=
  addrs.all fun a => (S.ip a).all fun ip => rankIp ip iface ≤ rank

/-- The addresses of the highest rank, in the order of the list. -/
def highest (S : StackAddrs A) (addrs : List A) (iface : Interface) : List A :=
  addrs.filter fun a => (S.ip a).any fun ip => noneAbove S addrs iface (rankIp ip iface)

theorem all_ranked {rank : Nat} :
    ((ranked S addrs iface).all fun p => p.2 ≤ rank) = noneAbove S addrs iface rank := by
  rw [ranked, List.all_filterMap, noneAbove]
  congr 1
  funext b
  cases S.ip b <;> rfl

theorem map_fst_filter_ranked (p : Nat → Bool) (addrs : List A) :
    ((ranked S addrs iface).filter fun q => p q.2).map Prod.fst =
      addrs.filter fun a => (S.ip a).any fun ip => p (rankIp ip iface) := by
  induction addrs with
  | nil => rfl
  | cons a addrs ih =>
      cases has : S.ip a with
      | none =>
          have skipped : ranked S (a :: addrs) iface = ranked S addrs iface := by
            rw [ranked, List.filterMap_cons_none (by rw [has]; rfl), ← ranked]
          rw [skipped, ih, List.filter_cons_of_neg (by rw [has]; exact Bool.false_ne_true)]
      | some ip =>
          have first : ranked S (a :: addrs) iface = (a, rankIp ip iface) :: ranked S addrs iface := by
            rw [ranked, List.filterMap_cons_some (by rw [has]; rfl), ← ranked]
          rw [first, List.filter_cons, List.filter_cons, has, Option.any_some, ← ih]
          split
          · rfl
          · rfl

theorem greatest_ranked :
    (greatest Prod.snd (ranked S addrs iface)).map Prod.fst = highest S addrs iface := by
  simp only [greatest, all_ranked]
  exact map_fst_filter_ranked (noneAbove S addrs iface) addrs

theorem pickBestAddr_eq : pickBestAddr S addrs iface = (highest S addrs iface).getLast? := by
  rw [pickBestAddr, maxByKey_eq, ← greatest_ranked, List.getLast?_map]

theorem head?_sortAddrsByReachability :
    (sortAddrsByReachability S addrs iface).head? = (highest S addrs iface).head? := by
  rw [sortAddrsByReachability, List.head?_map, head?_insertionSort, ← greatest_ranked,
    List.head?_map]

theorem highest_eq_nil : highest S addrs iface = [] ↔ ∀ a ∈ addrs, S.ip a = none := by
  rw [← greatest_ranked, List.map_eq_nil_iff, greatest_eq_nil, ranked, List.filterMap_eq_nil_iff]
  simp only [Option.map_eq_none_iff]

/-- The sorted list begins with the first address of the highest rank, and the best address
is the last of these. -/
theorem best_is_first_iff (S : StackAddrs A) (addrs : List A) (iface : Interface) :
    (sortAddrsByReachability S addrs iface).head? = (highest S addrs iface).head? ∧
    (pickBestAddr S addrs iface = (sortAddrsByReachability S addrs iface).head? ↔
      (highest S addrs iface).head? = (highest S addrs iface).getLast?) ∧
    (pickBestAddr S addrs iface = none ↔ ∀ a ∈ addrs, S.ip a = none) := by
  refine ⟨head?_sortAddrsByReachability, ?_, ?_⟩
  · rw [pickBestAddr_eq, head?_sortAddrsByReachability]
    exact eq_comm
  · rw [pickBestAddr_eq, List.getLast?_eq_none_iff]
    exact highest_eq_nil

namespace Sample

/-- `/ip4/127.0.0.1/tcp/4432/tls`, and the same with another IP of the loopback network. -/
def loopback : List Protocol := [.Ip4 ⟨127, 0, 0, 1⟩, .Tcp 4432, .Tls]

def secondLoopback : List Protocol := [.Ip4 ⟨127, 0, 0, 2⟩, .Tcp 4432, .Tls]

end Sample

/-- Two loopback addresses have the same rank: the first one leads the sorted list and the
second one is picked. -/
theorem best_is_last :
    pickBestAddr Sample.stackAddrs [Sample.loopback, Sample.secondLoopback] Sample.interface =
      some Sample.secondLoopback ∧
    (sortAddrsByReachability Sample.stackAddrs [Sample.loopback, Sample.secondLoopback]
      Sample.interface).head? = some Sample.loopback ∧
    Sample.loopback ≠ Sample.secondLoopback := by
  decide

/-- What is asked of the sorted list: the addresses that have an IP, by descending ranks, and
by ascending IPs where ranks are equal. -/
structure Documented (S : StackAddrs A) (iface : Interface) (addrs sorted : List A) : Prop where
  permutation : sorted.Perm (addrs.filter fun a => (S.ip a).isSome)
  descending : (sorted.filterMap S.ip).Pairwise fun ip other => rankIp other iface ≤ rankIp ip iface
  ascending : (sorted.filterMap S.ip).Pairwise fun ip other =>
    rankIp ip iface = rankIp other iface → ip ≤ other

/-- The addresses that have an IP, with it. -/
def withIps (S : StackAddrs A) (addrs : List A) : List (A × IpAddr) :=
  addrs.filterMap fun a => (S.ip a).map (a, ·)

theorem withIps_fst : (withIps S addrs).map Prod.fst = addrs.filter fun a => (S.ip a).isSome := by
  rw [withIps, List.map_filterMap, ← List.filterMap_eq_filter]
  congr 1
  funext a
  cases has : S.ip a <;> simp [Option.guard, has]

theorem withIps_snd : (withIps S addrs).map Prod.snd = addrs.filterMap S.ip := by
  rw [withIps, List.map_filterMap]
  congr 1
  funext a
  cases S.ip a <;> rfl

theorem mem_withIps {p : A × IpAddr} (there : p ∈ withIps S addrs) : S.ip p.1 = some p.2 := by
  obtain ⟨a, -, named⟩ := List.mem_filterMap.mp there
  obtain ⟨ip, has, rfl⟩ := Option.map_eq_some_iff.mp named
  exact has

theorem sortAddrsByReachability_eq :
    sortAddrsByReachability S addrs iface =
      ((withIps S addrs).insertionSort fun p q => rankIp q.2 iface ≤ rankIp p.2 iface).map Prod.fst := by
  have decorated : ranked S addrs iface = (withIps S addrs).map fun p => (p.1, rankIp p.2 iface) := by
    rw [ranked, withIps, List.map_filterMap]
    congr 1
    funext a
    cases S.ip a <;> rfl
  rw [sortAddrsByReachability, decorated, ← List.map_insertionSort
    (fun p q => rankIp q.2 iface ≤ rankIp p.2 iface) _ _ _ (fun _ _ _ _ => Iff.rfl), List.map_map]
  rfl

/-- The IPs of the sorted list are the IPs of the list, sorted by their ranks. -/
theorem ips_sortAddrsByReachability :
    (sortAddrsByReachability S addrs iface).filterMap S.ip =
      (addrs.filterMap S.ip).insertionSort fun ip other => rankIp other iface ≤ rankIp ip iface := by
  rw [sortAddrsByReachability_eq, List.filterMap_map, ← withIps_snd, ← List.map_insertionSort
    (fun p q => rankIp q.2 iface ≤ rankIp p.2 iface) _ _ _ (fun _ _ _ _ => Iff.rfl),
    ← List.filterMap_eq_map]
  apply List.filterMap_congr
  intro p there
  exact mem_withIps ((List.mem_insertionSort _).mp there)

theorem perm_sortAddrsByReachability :
    (sortAddrsByReachability S addrs iface).Perm (addrs.filter fun a => (S.ip a).isSome) := by
  rw [sortAddrsByReachability_eq, ← withIps_fst]
  exact (List.perm_insertionSort _ _).map _

theorem documented_iff :
    Documented S iface addrs (sortAddrsByReachability S addrs iface) ↔
      (addrs.filterMap S.ip).Pairwise fun ip other =>
        rankIp ip iface = rankIp other iface → ip ≤ other := by
  have ties := pairwise_ties_insertionSort (fun ip => rankIp ip iface) (R := (· ≤ ·))
    (l := addrs.filterMap S.ip)
  constructor
  · intro documented
    have ascending := documented.ascending
    rw [ips_sortAddrsByReachability] at ascending
    exact ties.mp ascending
  · intro ascending
    refine ⟨perm_sortAddrsByReachability, ?_, ?_⟩
    · rw [ips_sortAddrsByReachability]
      exact List.pairwise_insertionSort _ _
    · rw [ips_sortAddrsByReachability]
      exact ties.mpr ascending

/-- The order of the IPs is the same for every order of the list exactly if there is one IP
to each rank. -/
theorem independent_iff :
    (∀ addrs' : List A, addrs'.Perm addrs →
      (sortAddrsByReachability S addrs' iface).filterMap S.ip =
        (sortAddrsByReachability S addrs iface).filterMap S.ip) ↔
      ∀ ip ∈ addrs.filterMap S.ip, ∀ other ∈ addrs.filterMap S.ip,
        rankIp ip iface = rankIp other iface → ip = other := by
  constructor
  · intro independent ip ip_there other other_there same
    obtain ⟨x, x_there, has⟩ := List.mem_filterMap.mp ip_there
    obtain ⟨y, y_there, has'⟩ := List.mem_filterMap.mp other_there
    by_cases one : x = y
    · subst one
      exact Option.some.inj (has.symm.trans has')
    · -- whichever of the two is in front comes first among the IPs of its rank
      obtain ⟨rest, forth, back⟩ := perm_cons_cons x_there y_there one
      have order := (independent _ forth).trans (independent _ back).symm
      simp only [ips_sortAddrsByReachability, List.filterMap_cons_some has,
        List.filterMap_cons_some has'] at order
      have first := congrArg (List.filter fun a => rankIp a iface = rankIp ip iface) order
      rw [filter_insertionSort, filter_insertionSort] at first
      simpa [List.filter_cons, same] using congrArg List.head? first
  · intro single addrs' perm
    have ips := perm.filterMap S.ip
    rw [ips_sortAddrsByReachability, ips_sortAddrsByReachability]
    apply List.Perm.eq_of_pairwise _ (List.pairwise_insertionSort _ _) (List.pairwise_insertionSort _ _)
    · exact (List.perm_insertionSort _ _).trans (ips.trans (List.perm_insertionSort _ _).symm)
    · intro ip other ip_there other_there above below
      refine single ip ?_ other ?_ (le_antisymm below above)
      · exact ips.mem_iff.mp ((List.mem_insertionSort _).mp ip_there)
      · exact (List.mem_insertionSort _).mp other_there

/-- The addresses that have an IP come out by descending ranks; those of equal rank by
ascending IPs exactly if they came in so; and in an order of IPs that does not depend on the
list's exactly if there is one IP to each rank. -/
theorem reachability_order_iff (S : StackAddrs A) (addrs : List A) (iface : Interface) :
    (sortAddrsByReachability S addrs iface).Perm (addrs.filter fun a => (S.ip a).isSome) ∧
    ((sortAddrsByReachability S addrs iface).filterMap S.ip).Pairwise
      (fun ip other => rankIp other iface ≤ rankIp ip iface) ∧
    (Documented S iface addrs (sortAddrsByReachability S addrs iface) ↔
      (addrs.filterMap S.ip).Pairwise fun ip other =>
        rankIp ip iface = rankIp other iface → ip ≤ other) ∧
    ((∀ addrs' : List A, addrs'.Perm addrs →
      (sortAddrsByReachability S addrs' iface).filterMap S.ip =
        (sortAddrsByReachability S addrs iface).filterMap S.ip) ↔
      ∀ ip ∈ addrs.filterMap S.ip, ∀ other ∈ addrs.filterMap S.ip,
        rankIp ip iface = rankIp other iface → ip = other) := by
  refine ⟨perm_sortAddrsByReachability, ?_, documented_iff, independent_iff⟩
  rw [ips_sortAddrsByReachability]
  exact List.pairwise_insertionSort _ _

/-- The two loopback addresses come out as they came in, in either order. -/
theorem ties_keep_order :
    (sortAddrsByReachability Sample.stackAddrs [Sample.secondLoopback, Sample.loopback]
      Sample.interface).filterMap Sample.stackAddrs.ip = [.V4 ⟨127, 0, 0, 2⟩, .V4 ⟨127, 0, 0, 1⟩] ∧
    (sortAddrsByReachability Sample.stackAddrs [Sample.loopback, Sample.secondLoopback]
      Sample.interface).filterMap Sample.stackAddrs.ip = [.V4 ⟨127, 0, 0, 1⟩, .V4 ⟨127, 0, 0, 2⟩] ∧
    rankIp (.V4 ⟨127, 0, 0, 2⟩) Sample.interface = rankIp (.V4 ⟨127, 0, 0, 1⟩) Sample.interface ∧
    ¬ IpAddr.V4 ⟨127, 0, 0, 2⟩ ≤ IpAddr.V4 ⟨127, 0, 0, 1⟩ := by
  decide

end Foctet.Net
