import ToyIP.Stack.TcpSocks

/-! # The sock of a segment

`tcp_lookup_sock` asks the second list for the four-tuple of the segment and the first one for its
local address alone. The first list holds the socks that listen and the socks of `tcp_v4_connect`,
in the order in which they came. `lookup_right` says for which lists the sock found is the right
one. -/

namespace ToyIP.Stack.TcpLookup

open ToyIP.Lib.CircularList ToyIP.Lib.Run ToyIP.Tcp.Types ToyIP.Tcp.Input ToyIP.Tcp.Life
  ToyIP.Tcp.Teardown ToyIP.Tcp.Places ToyIP.Stack.TcpSocks

/-! ### One step of one sock -/

/-- The local address, and whether the sock listens or is closed, are what they were. -/
structure Keeps (sk sk' : TcpSock) : Prop where
  saddr : sk'.saddr = sk.saddr
  sport : sk'.sport = sk.sport
  listen : sk'.state = .listen ↔ sk.state = .listen
  close : sk'.state = .close ↔ sk.state = .close

/-- Where a sock of the next state comes from. -/
inductive Change (s : State) (e : Event) (s' : State) (j : ℕ) (sk' : TcpSock) : Prop
  | keeps (sk : TcpSock) (hsk : s.socks j = some sk) (hkeep : Keeps sk sk')
    (hb : s'.bound j = s.bound j)
  | socket (hj : j = s.fresh) (hsk' : sk' = tcpAllocSock) (hb : s'.bound j = none)
  | child (hj : j = s.fresh) (hst : sk'.state = .synReceived) (hb : s'.bound j = none)
  | refused (sk : TcpSock) (hsk : s.socks j = some sk) (hport : sk.sport = 0)
    (hsk' : sk' = { sk with saddr := 0 }) (hb : s'.bound j = s.bound j)
  | bound (addr : UInt32) (port : UInt16) (he : e = .bind j addr port) (sk : TcpSock)
    (hsk : s.socks j = some sk) (hne : port ≠ 0)
    (hsk' : sk' = { sk with saddr := addr, sport := port, dport := 0, daddr := 0 })
    (hb : s'.bound j = some (addr, port))
  | listen (sk : TcpSock) (hsk : s.socks j = some sk) (hport : sk.sport ≠ 0)
    (hst : sk.state = .close ∨ sk.state = .listen)
    (hsk' : sk' = { sk with state := .listen, link := some .connectingOrListening })
    (hb : s'.bound j = s.bound j)
  | connect (sk : TcpSock) (hsk : s.socks j = some sk) (hport : sk.sport = 0) (daddr : UInt32)
    (dport : UInt16) (isn : UInt32)
    (hsk' : sk' = tcpV4Connect sk stackaddr daddr (tcpGeneratePort s) dport isn)
    (hb : s'.bound j = s.bound j)

section Change

variable {s s' : State} {e : Event} {j k : ℕ} {sk sk' : TcpSock}

theorem Keeps.refl (sk : TcpSock) : Keeps sk sk := ⟨rfl, rfl, Iff.rfl, Iff.rfl⟩

theorem Keeps.of_stays (h : Stays sk sk') : Keeps sk sk' :=
  ⟨congrArg Place.saddr h.place, congrArg Place.sport h.place, h.listen, h.close⟩

theorem socks_setSock {t : TcpSock} {r : Option TcpSock}
    (h : (s.setSock k r).socks j = some t) : j = k ∧ r = some t ∨ j ≠ k ∧ s.socks j = some t := by
  by_cases hj : j = k
  · exact .inl ⟨hj, by simpa [State.setSock, hj] using h⟩
  · exact .inr ⟨hj, by simpa [State.setSock, hj] using h⟩

/-- Only the sock `k` changes, and it keeps its address. -/
theorem Change.setSock (sk' : TcpSock) (hsk : s.socks k = some sk) (hkeep : Keeps sk sk')
    (hsocks : s'.socks = (s.setSock k (some sk')).socks) (hb : s'.bound = s.bound) {t : TcpSock}
    (h : s'.socks j = some t) : Change s e s' j t := by
  rw [hsocks] at h
  rcases socks_setSock h with ⟨rfl, ht⟩ | ⟨-, ht⟩
  · exact .keeps sk hsk (Option.some.inj ht ▸ hkeep) (by rw [hb])
  · exact .keeps t ht (.refl t) (by rw [hb])

theorem Change.update (hsk : s.socks k = some sk) (hstay : sk'.freed = true ∨ Keeps sk sk')
    (hs : s.update k sk' = some s') {t : TcpSock} (h : s'.socks j = some t) : Change s e s' j t := by
  rcases update_some hs with ⟨-, m, rfl⟩ | ⟨hf, rfl⟩
  · -- the sock is gone
    rcases socks_setSock h with ⟨-, ht⟩ | ⟨-, ht⟩
    · cases ht
    · exact .keeps t ht (.refl t) rfl
  · exact .setSock _ hsk (hstay.resolve_left (Bool.eq_false_iff.mp hf)) rfl rfl h

theorem Change.onSock {ev : SockEvent} (hs : onSock k ev s = some s') {t : TcpSock}
    (h : s'.socks j = some t) : Change s e s' j t := by
  obtain ⟨sk, hsk, hrest⟩ := Option.bind_eq_some_iff.mp hs
  obtain ⟨sk', hsk', hs'⟩ := Option.bind_eq_some_iff.mp hrest
  refine .update hsk ?_ hs' h
  rcases (sockStep_stays hsk').2 with ⟨-, -, -, hf, -⟩ | ⟨-, hleft | hstay⟩
  · exact .inl hf
  · exact .inl hleft.1
  · exact .inr (.of_stays hstay)

/-- The only new sock of a segment is the child of the listening one. -/
theorem Change.process {seg : Seg} {isn : UInt32} (hs : process k seg isn s = some s')
    {t : TcpSock} (h : s'.socks j = some t) : Change s e s' j t := by
  obtain ⟨sk, hsk, hs⟩ := process_some hs
  obtain ⟨hstay, hchild⟩ := stays_tcpHandleListen sk seg isn
  cases hs with
  | listened hst hc => exact .setSock _ hsk (.of_stays hstay) rfl rfl h
  | child hst child m hc =>
    by_cases hj : j = s.fresh
    · refine .child hj ?_ (if_pos hj)
      rw [show t = child from Option.some.inj (h.symm.trans (if_pos hj))]
      exact (hchild child hc).1
    · have ht : (s.setSock k (some (tcpHandleListen sk seg isn).1)).socks j = some t :=
        (if_neg hj).symm.trans h
      rcases socks_setSock ht with ⟨rfl, ht'⟩ | ⟨-, ht'⟩
      · exact .keeps sk hsk (Option.some.inj ht' ▸ .of_stays hstay) (if_neg hj)
      · exact .keeps t ht' (.refl t) (if_neg hj)
  | kept hst sk' hrun hf =>
    rcases stays_tcpProcess hrun with hleft | hstay
    · exact absurd hleft.1 (Bool.eq_false_iff.mp hf)
    · exact .setSock _ hsk ⟨congrArg Place.saddr hstay.place, congrArg Place.sport hstay.place,
        hstay.listen, hstay.close⟩ rfl rfl h
  | freed hst sk' m hrun hf =>
    rcases socks_setSock h with ⟨-, ht⟩ | ⟨-, ht⟩
    · cases ht
    · exact .keeps t ht (.refl t) rfl

/-- **Where a sock comes from.** -/
theorem step_change (hs : step s e = some s') {t : TcpSock} (h : s'.socks j = some t) :
    Change s e s' j t := by
  cases e with
  | socket =>
    obtain rfl := Option.some.inj hs
    by_cases hj : j = s.fresh
    · exact .socket hj (Option.some.inj (h.symm.trans (if_pos hj))) (if_pos hj)
    · exact .keeps t ((if_neg hj).symm.trans h) (.refl t) (if_neg hj)
  | bind k addr port =>
    obtain ⟨⟨r, u⟩, hu, rfl⟩ := Option.map_eq_some_iff.mp hs
    cases inetBind_some hu with
    | same => exact .keeps t h (.refl t) rfl
    | refused sk hsk hport _ =>
      rcases socks_setSock h with ⟨rfl, ht⟩ | ⟨-, ht⟩
      · exact .refused sk hsk hport (Option.some.inj ht).symm rfl
      · exact .keeps t ht (.refl t) rfl
    | bound sk hsk hport hlocal hne hused =>
      rcases socks_setSock h with ⟨rfl, ht⟩ | ⟨hj, ht⟩
      · exact .bound addr port rfl sk hsk hne (Option.some.inj ht).symm (if_pos rfl)
      · exact .keeps t ht (.refl t) (if_neg hj)
  | listen k =>
    obtain ⟨⟨r, u⟩, hu, rfl⟩ := Option.map_eq_some_iff.mp hs
    obtain ⟨sk, hsk, ⟨-, rfl⟩ | ⟨hport, hst, m, -, rfl⟩⟩ := tcpListen_some hu
    · exact .keeps t h (.refl t) rfl
    · rcases socks_setSock h with ⟨rfl, ht⟩ | ⟨-, ht⟩
      · exact .listen sk hsk hport hst (Option.some.inj ht).symm rfl
      · exact .keeps t ht (.refl t) rfl
  | connect k daddr dport isn =>
    obtain ⟨sk, hsk, ⟨-, rfl⟩ | ⟨hport, m, -, rfl⟩⟩ := inetConnect_some hs
    · exact .keeps t h (.refl t) rfl
    · rcases socks_setSock h with ⟨rfl, ht⟩ | ⟨-, ht⟩
      · exact .connect sk hsk hport daddr dport isn (Option.some.inj ht).symm rfl
      · exact .keeps t ht (.refl t) rfl
  | sleep k =>
    obtain ⟨sk, hsk, hs⟩ := Option.bind_eq_some_iff.mp hs
    rw [Option.ite_none_right_eq_some] at hs
    have hs' := Option.some.inj hs.2
    exact .setSock { sk with sleeping := true } hsk ⟨rfl, rfl, Iff.rfl, Iff.rfl⟩ (by rw [← hs'])
      (by rw [← hs']; rfl) h
  | connected k =>
    obtain ⟨sk, m, m', hsk, -, -, -, hs'⟩ := tcpV4Connected_some hs
    exact .setSock { sk with link := some .establishedOrSynRecvd } hsk
      ⟨rfl, rfl, Iff.rfl, Iff.rfl⟩ (by rw [hs']) (by rw [hs']; rfl) h
  | segment seg isn =>
    obtain ⟨a, -, hs⟩ := Option.bind_eq_some_iff.mp hs
    split at hs
    · exact .process hs h
    · exact .keeps t (Option.some.inj hs ▸ h) (.refl t) (by rw [Option.some.inj hs])
  | accept k =>
    obtain ⟨sk, hsk, rfl⟩ := Option.map_eq_some_iff.mp hs
    exact .setSock { sk with accepted := false } hsk ⟨rfl, rfl, Iff.rfl, Iff.rfl⟩ rfl rfl h
  | free k =>
    obtain ⟨sk, -, rfl⟩ := Option.map_eq_some_iff.mp hs
    rcases socks_setSock h with ⟨-, ht⟩ | ⟨-, ht⟩
    · cases ht
    · exact .keeps t ht (.refl t) rfl
  | tick =>
    obtain rfl := Option.some.inj hs
    exact .keeps t h (.refl t) rfl
  | write | read | receive | close | timer => exact .onSock hs h

end Change

/-! ### The names of the socks -/

/-- A sock that listens has a port, and before a sock is connected its local address is the one that
`inet_bind` has given it. -/
structure Named (s : State) : Prop where
  bound : ∀ k sk, s.socks k = some sk → sk.state = .close ∨ sk.state = .listen → sk.sport ≠ 0 →
    s.bound k = some (sk.saddr, sk.sport)
  listen : ∀ k sk, s.socks k = some sk → sk.state = .listen → sk.sport ≠ 0

theorem named_init : Named init := ⟨fun _ _ h _ _ => (by cases h), fun _ _ h _ => (by cases h)⟩

theorem named_step {s s' : State} {e : Event} (h : Named s) (hs : step s e = some s') : Named s' := by
  constructor
  · intro k sk hsk hst hport
    cases step_change hs hsk with
    | keeps sk₀ hsk₀ hkeep hb =>
      rw [hb, hkeep.saddr, hkeep.sport]
      exact h.bound k sk₀ hsk₀ (by rwa [← hkeep.close, ← hkeep.listen]) (hkeep.sport ▸ hport)
    | socket _ hsk' _ => exact absurd (hsk' ▸ rfl) hport
    | child _ hst' _ => simp [hst'] at hst
    | refused sk₀ _ hport₀ hsk' _ => exact absurd (by rw [hsk']; exact hport₀) hport
    | bound addr port _ sk₀ _ _ hsk' hb => rw [hb, hsk']
    | listen sk₀ hsk₀ hport₀ hst₀ hsk' hb =>
      rw [hb, hsk']
      exact h.bound k sk₀ hsk₀ hst₀ hport₀
    | connect sk₀ _ _ daddr dport isn hsk' _ =>
      obtain ⟨hl, hc, -⟩ := hsk' ▸ tcpV4Connect_state sk₀ stackaddr daddr (tcpGeneratePort s) dport isn
      exact absurd hst (not_or.mpr ⟨hc, hl⟩)
  · intro k sk hsk hst
    cases step_change hs hsk with
    | keeps sk₀ hsk₀ hkeep _ => exact hkeep.sport ▸ h.listen k sk₀ hsk₀ (hkeep.listen.mp hst)
    | socket _ hsk' _ => simp [hsk', tcpAllocSock] at hst
    | child _ hst' _ => simp [hst'] at hst
    | refused sk₀ hsk₀ _ hsk' _ =>
      rw [hsk'] at hst ⊢
      exact h.listen k sk₀ hsk₀ hst
    | bound addr port _ sk₀ _ hne hsk' _ => rw [hsk']; exact hne
    | listen sk₀ _ hport₀ _ hsk' _ => rw [hsk']; exact hport₀
    | connect sk₀ _ _ daddr dport isn hsk' _ =>
      obtain ⟨hl, -⟩ := hsk' ▸ tcpV4Connect_state sk₀ stackaddr daddr (tcpGeneratePort s) dport isn
      exact absurd hst hl

/-! ### The lookup -/

section Lookup

variable {s : State} {cl es : List ℕ} {sa da : UInt32} {sp dp : UInt16}

theorem length_le_fresh {l : List ℕ} (hi : Inv s) (hopen : ∀ k ∈ l, Open s k) (hnodup : l.Nodup) :
    l.length ≤ s.fresh := by
  have hsub : l ⊆ List.range s.fresh := fun k hk => List.mem_range.mpr (hi.lt_fresh (hopen k hk))
  simpa using (List.subperm_of_subset hnodup hsub).length_le

/-- A node of a sock that passes the test. -/
def passes (s : State) (p : TcpSock → Bool) : Node → Bool
  | .sock k => (s.socks k).any p
  | _ => false

/-- A walk over a list finds the first sock that passes the test. -/
theorem search_ring {head : Node} {l : List ℕ} (h : Ring s.links head (l.map .sock))
    (hopen : ∀ k ∈ l, Open s k) (hlen : l.length ≤ s.fresh) (p : TcpSock → Bool) :
    search s head p = some ((l.find? fun k => (s.socks k).any p).map .sock) := by
  have htest : ∀ a ∈ l.map Node.sock, test s p a = some (passes s p a) := by
    intro a ha
    obtain ⟨k, hk, rfl⟩ := List.mem_map.mp ha
    obtain ⟨sk, hsk⟩ := Option.isSome_iff_exists.mp (hopen k hk)
    simp [test, passes, hsk]
  have hfind := h.listFind htest [] (l.map .sock) (s.fresh + 1) rfl
    (by simpa using Nat.lt_succ_of_le hlen)
  rw [search, h.next_head, Option.bind_some, hfind, List.find?_map]
  rfl

theorem search_eq {head : Node} {l : List ℕ} (hi : Inv s) (h : Ring s.links head (l.map .sock))
    (hopen : ∀ k ∈ l, Open s k) (p : TcpSock → Bool) :
    search s head p = some ((l.find? fun k => (s.socks k).any p).map .sock) :=
  search_ring h hopen (length_le_fresh hi hopen ((List.nodup_cons.mp h.1).2.of_map _)) p

/-- The sock has the four-tuple of a segment from `sa`, `sp` to `da`, `dp`. -/
def Tuple (s : State) (sa : UInt32) (sp : UInt16) (da : UInt32) (dp : UInt16) (k : ℕ) : Prop :=
  (s.socks k).any (hasTuple da dp sa sp) = true

/-- The sock has this local address. -/
def Local (s : State) (da : UInt32) (dp : UInt16) (k : ℕ) : Prop :=
  (s.socks k).any (hasLocal da dp) = true

theorem tcpLookupSock_eq (h : Exact s cl es) (hi : Inv s) : tcpLookupSock sa sp da dp s =
    some (((es.find? fun k => (s.socks k).any (hasTuple da dp sa sp)).or
      (cl.find? fun k => (s.socks k).any (hasLocal da dp))).map .sock) := by
  have hes := search_eq hi h.rings.right (fun k hk => (h.mem_iff.mp (.inr hk)).isOpen)
    (hasTuple da dp sa sp)
  have hcl := search_eq hi h.rings.left (fun k hk => (h.mem_iff.mp (.inl hk)).isOpen)
    (hasLocal da dp)
  rw [tcpLookupSock, tcpLookupEstablisedOrSynRecvdSock, hes, tcpLookupConnectingOrListeningSock, hcl]
  cases es.find? fun k => (s.socks k).any (hasTuple da dp sa sp) <;> rfl

/-- **The sock found is the right one.** -/
structure Right (s : State) (cl es : List ℕ) (sa : UInt32) (sp : UInt16) (da : UInt32) (dp : UInt16) :
    Prop where
  tuple : (∃ k ∈ cl ++ es, Tuple s sa sp da dp k) →
    ∃ k, tcpLookupSock sa sp da dp s = some (some (.sock k)) ∧ Tuple s sa sp da dp k
  synSent : ∀ k sk, tcpLookupSock sa sp da dp s = some (some (.sock k)) → s.socks k = some sk →
    sk.state = .synSent → sa = sk.daddr ∧ sp = sk.dport
  listen : (∀ k ∈ cl ++ es, ¬ Tuple s sa sp da dp k) → ∀ k, Listening s k →
    (s.bound k = some (da, dp) ∨ s.bound k = some (0, dp)) →
      tcpLookupSock sa sp da dp s = some (some (.sock k))

/-- Of the socks in the list with this local address `k` is the first one, with `ys` behind it. -/
def First (s : State) (cl : List ℕ) (da : UInt32) (dp : UInt16) (k : ℕ) (ys : List ℕ) : Prop :=
  ∃ xs, cl = xs ++ k :: ys ∧ Local s da dp k ∧ ∀ j ∈ xs, ¬ Local s da dp j

/-- The lists in which a segment reaches the right sock: one of the second list has its four-tuple;
or the first one with its local address has; or no sock has it, no sock listens on the wildcard
address (unless the segment came to it), and the first sock with the local address is not connecting
and has no listening one behind it. -/
inductive Reaches (s : State) (cl es : List ℕ) (sa : UInt32) (sp : UInt16) (da : UInt32)
    (dp : UInt16) : Prop
  | connection (k : ℕ) (hk : k ∈ es) (h : Tuple s sa sp da dp k)
  | first (k : ℕ) (ys : List ℕ) (hk : First s cl da dp k ys) (h : Tuple s sa sp da dp k)
  | listener (hnone : ∀ k ∈ cl ++ es, ¬ Tuple s sa sp da dp k)
    (hwild : ∀ k, Listening s k → s.bound k = some (0, dp) → da = 0)
    (hfirst : ∀ k ys, First s cl da dp k ys →
      (s.socks k).map TcpSock.state ≠ some .synSent ∧
        ∀ j ∈ ys, Local s da dp j → ¬ Listening s j)

theorem Tuple.peer {k : ℕ} {sk : TcpSock} (h : Tuple s sa sp da dp k) (hsk : s.socks k = some sk) :
    sa = sk.daddr ∧ sp = sk.dport := by
  rw [Tuple, hsk, Option.any_some, hasTuple] at h
  simp only [Bool.and_eq_true, beq_iff_eq] at h
  exact ⟨h.2.1.symm, h.2.2.symm⟩

theorem first_iff {k : ℕ} : (∃ ys, First s cl da dp k ys) ↔
    (cl.find? fun k => (s.socks k).any (hasLocal da dp)) = some k := by
  rw [List.find?_eq_some_iff_append]
  constructor
  · rintro ⟨ys, xs, hcl, hk, hxs⟩
    exact ⟨hk, xs, ys, hcl, fun j hj => by simpa [Local] using hxs j hj⟩
  · rintro ⟨hk, xs, ys, hcl, hxs⟩
    exact ⟨ys, xs, hcl, hk, fun j hj => by simpa [Local] using hxs j hj⟩

/-- A sock that was bound to the address of a segment and listens has its local address. -/
theorem local_of_bound {k : ℕ} (hn : Named s) (hl : Listening s k)
    (hb : s.bound k = some (da, dp)) : Local s da dp k := by
  obtain ⟨sk, hsk, hst⟩ := Option.map_eq_some_iff.mp hl
  have hbound := hn.bound k sk hsk (.inr hst) (hn.listen k sk hsk hst)
  obtain ⟨rfl, rfl⟩ := Prod.mk.inj (Option.some.inj (hb.symm.trans hbound))
  simp [Local, hsk, hasLocal]

theorem bound_of_local {k : ℕ} (hn : Named s) (hl : Listening s k) (hloc : Local s da dp k) :
    s.bound k = some (da, dp) := by
  obtain ⟨sk, hsk, hst⟩ := Option.map_eq_some_iff.mp hl
  rw [Local, hsk, Option.any_some, hasLocal, Bool.and_eq_true, beq_iff_eq, beq_iff_eq] at hloc
  rw [← hloc.1, ← hloc.2]
  exact hn.bound k sk hsk (.inr hst) (hn.listen k sk hsk hst)

/-- No sock of the second list has the four-tuple: the first list decides. -/
theorem lookup_first (h : Exact s cl es) (hi : Inv s) (hes : ∀ k ∈ es, ¬ Tuple s sa sp da dp k)
    {k : ℕ} : tcpLookupSock sa sp da dp s = some (some (.sock k)) ↔ ∃ ys, First s cl da dp k ys := by
  have hnone : (es.find? fun k => (s.socks k).any (hasTuple da dp sa sp)) = none :=
    List.find?_eq_none.mpr hes
  rw [tcpLookupSock_eq h hi, hnone, Option.none_or, first_iff, Option.some.injEq,
    Option.map_eq_some_iff]
  simp

/-- **One segment.** It reaches the right sock if and only if the lists are as `Reaches` says. -/
theorem right_iff (h : Exact s cl es) (hi : Inv s) (hn : Named s) :
    Right s cl es sa sp da dp ↔ Reaches s cl es sa sp da dp := by
  by_cases hes : ∃ k ∈ es, Tuple s sa sp da dp k
  · obtain ⟨k, hk, ht⟩ := hes
    refine iff_of_true ?_ (.connection k hk ht)
    obtain ⟨j, hj⟩ : ∃ j, (es.find? fun k => (s.socks k).any (hasTuple da dp sa sp)) = some j :=
      Option.isSome_iff_exists.mp (List.find?_isSome.mpr ⟨k, hk, ht⟩)
    have htj := List.find?_some hj
    have hlookup : tcpLookupSock sa sp da dp s = some (some (.sock j)) := by
      rw [tcpLookupSock_eq h hi, hj]
      rfl
    refine ⟨fun _ => ⟨j, hlookup, htj⟩, fun i sk hi hsk _ => ?_, fun hnone => ?_⟩
    · obtain rfl : j = i := by simpa using hlookup.symm.trans hi
      exact Tuple.peer htj hsk
    · exact absurd ht (hnone k (List.mem_append.mpr (.inr hk)))
  simp only [not_exists, not_and] at hes
  have hlookup := fun k => lookup_first (k := k) h hi hes
  constructor
  · intro hr
    by_cases hcl : ∃ k ∈ cl, Tuple s sa sp da dp k
    · obtain ⟨k, hk, ht⟩ := hcl
      obtain ⟨j, hj, htj⟩ := hr.tuple ⟨k, List.mem_append.mpr (.inl hk), ht⟩
      obtain ⟨ys, hys⟩ := (hlookup j).mp hj
      exact .first j ys hys htj
    simp only [not_exists, not_and] at hcl
    have hnone : ∀ k ∈ cl ++ es, ¬ Tuple s sa sp da dp k := fun k hk =>
      (List.mem_append.mp hk).elim (hcl k) (hes k)
    refine .listener hnone (fun k hl hb => ?_) fun k ys hk => ⟨fun hst => ?_, fun j hj hloc hl => ?_⟩
    · obtain ⟨ys, xs, hcl', hloc, -⟩ := (hlookup k).mp (hr.listen hnone k hl (.inr hb))
      have hb' := bound_of_local hn hl hloc
      exact (Prod.mk.inj (Option.some.inj (hb'.symm.trans hb))).1
    · obtain ⟨sk, hsk, hst⟩ := Option.map_eq_some_iff.mp hst
      have hpeer := hr.synSent k sk ((hlookup k).mpr ⟨ys, hk⟩) hsk hst
      obtain ⟨xs, hcl', hloc, -⟩ := hk
      refine hcl k (by rw [hcl']; simp) ?_
      rw [Local, hsk, Option.any_some, hasLocal] at hloc
      rw [Tuple, hsk, Option.any_some, hasTuple, hloc, hpeer.1, hpeer.2]
      simp
    · obtain ⟨ys', hj'⟩ := (hlookup j).mp (hr.listen hnone j hl (.inl (bound_of_local hn hl hloc)))
      have hjk : j = k := Option.some.inj ((first_iff.mp ⟨ys', hj'⟩).symm.trans (first_iff.mp ⟨ys, hk⟩))
      obtain ⟨xs, hcl', -, -⟩ := hk
      have hnodup := hcl' ▸ h.nodup_cl
      exact (List.nodup_cons.mp (List.nodup_append.mp hnodup).2.1).1 (hjk ▸ hj)
  · intro hr
    cases hr with
    | connection k hk ht => exact absurd ht (hes k hk)
    | first k ys hk ht =>
      have hfound := (hlookup k).mpr ⟨ys, hk⟩
      refine ⟨fun _ => ⟨k, hfound, ht⟩, fun j sk hj hsk _ => ?_, fun hnone => ?_⟩
      · obtain rfl : k = j := by simpa using hfound.symm.trans hj
        exact ht.peer hsk
      · obtain ⟨xs, hcl, -⟩ := hk
        exact absurd ht (hnone k (by simp [hcl]))
    | listener hnone hwild hfirst =>
      refine ⟨fun ⟨k, hk, ht⟩ => absurd ht (hnone k hk), fun k sk hk hsk hst => ?_, fun _ k hl hb => ?_⟩
      · obtain ⟨ys, hys⟩ := (hlookup k).mp hk
        exact absurd (by rw [hsk, Option.map_some, hst]) (hfirst k ys hys).1
      · have hb' : s.bound k = some (da, dp) := hb.elim id fun h0 => by rw [hwild k hl h0, h0]
        have hloc := local_of_bound hn hl hb'
        have hk : k ∈ cl := (h.mem_cl k).mpr (.inl hl)
        obtain ⟨j, hj⟩ : ∃ j, (cl.find? fun k => (s.socks k).any (hasLocal da dp)) = some j :=
          Option.isSome_iff_exists.mp (List.find?_isSome.mpr ⟨k, hk, hloc⟩)
        obtain ⟨ys, hys⟩ := first_iff.mpr hj
        -- the listening sock is the first one: it is not before it and not behind it
        have hkj : k = j := by
          obtain ⟨-, hbehind⟩ := hfirst j ys hys
          obtain ⟨xs, hcl, -, hxs⟩ := hys
          rw [hcl, List.mem_append, List.mem_cons] at hk
          rcases hk with hk | hk | hk
          · exact absurd hloc (hxs k hk)
          · exact hk
          · exact absurd hl (hbehind k hk hloc)
        exact (hlookup k).mpr ⟨ys, hkj ▸ hys⟩

end Lookup

/-! ### Runs -/

/-- What holds after a run that keeps the tables exact. -/
theorem exact_of_sound {evs : List Event} {t : State} (hr : run step init evs = some t)
    (hsound : Along step Sound init evs) : ∃ cl es, Exact t cl es ∧ Inv t ∧ Named t := by
  have hkeep : ∀ s e s', (Good s ∧ Named s) → Sound s e → step s e = some s' → Good s' ∧ Named s' :=
    fun s e s' ⟨⟨hi, _, _, h⟩, hn⟩ he hs => ⟨(good_step h hi hs).1 he, named_step hn hs⟩
  obtain ⟨⟨hi, cl, es, h⟩, hn⟩ := run_inv hkeep ⟨⟨inv_init, _, _, exact_init⟩, named_init⟩ hsound hr
  exact ⟨cl, es, h, hi, hn⟩

/-- **Segments reach the right sock.** After every run that keeps the tables exact, and for every
segment, if and only if the lists are as `Reaches` says. -/
theorem lookup_right {evs : List Event} {t : State} (hr : run step init evs = some t)
    (hsound : Along step Sound init evs) : ∃ cl es, Exact t cl es ∧
      ∀ sa sp da dp, Right t cl es sa sp da dp ↔ Reaches t cl es sa sp da dp := by
  obtain ⟨cl, es, h, hi, hn⟩ := exact_of_sound hr hsound
  exact ⟨cl, es, h, fun sa sp da dp => right_iff h hi hn⟩

/-- A SYN from 10.0.1.5:7 to port 80. -/
def syn : Seg where
  saddr := 0x0A000105
  daddr := stackaddr
  th := { sport := 7, dport := 80, syn := true }

/-- A sock listens, and a SYN makes its child. -/
def oneChild : List Event := [.socket, .bind 0 stackaddr 80, .listen 0, .segment syn 100]

theorem lookup_right_oneChild : ∃ t cl es, run step init oneChild = some t ∧ Exact t cl es ∧
    Right t cl es 0x0A000105 7 stackaddr 80 := by
  have hrun : (run step init oneChild).map (fun t => ((t.socks 1).isSome, (t.parents 1).isSome,
      (t.socks 1).any (hasTuple stackaddr 80 0x0A000105 7))) = some (true, true, true) := by decide
  obtain ⟨t, ht, heq⟩ := Option.map_eq_some_iff.mp hrun
  obtain ⟨hopen, hrest⟩ := Prod.mk.inj heq
  obtain ⟨hparent, htuple⟩ := Prod.mk.inj hrest
  obtain ⟨cl, es, h, hiff⟩ := lookup_right ht (by decide)
  have hes : 1 ∈ es := (h.mem_es 1).mpr (.inl ⟨hopen, hparent⟩)
  exact ⟨t, cl, es, ht, h, (hiff ..).mpr (.connection 1 hes htuple)⟩

/-- A sock is connecting from port 40001 to 10.0.1.5:80, and a segment to this port comes from
10.0.1.9:9: it is given to the sock. -/
theorem foreign_sender : ¬ ∀ (evs : List Event) (t : State) (cl es : List ℕ),
    run step init evs = some t → Exact t cl es → ∀ sa sp da dp, Right t cl es sa sp da dp := by
  intro hall
  have hrun : (run step init [.socket, .connect 0 0x0A000105 80 0]).map (fun t =>
      ((t.socks 0).map fun sk => (sk.state, sk.daddr), tcpLookupSock 0x0A000109 9 stackaddr 40001 t)) =
      some (some (.synSent, 0x0A000105), some (some (.sock 0))) := by decide
  obtain ⟨t, ht, heq⟩ := Option.map_eq_some_iff.mp hrun
  obtain ⟨hsock, hlookup⟩ := Prod.mk.inj heq
  obtain ⟨sk, hsk, hst⟩ := Option.map_eq_some_iff.mp hsock
  obtain ⟨hst, hdaddr⟩ := Prod.mk.inj hst
  obtain ⟨cl, es, h, -⟩ := exact_of_sound ht (by decide)
  have hpeer := (hall _ t cl es ht h 0x0A000109 9 stackaddr 40001).synSent 0 sk hlookup hsk hst
  rw [hdaddr] at hpeer
  exact absurd hpeer.1 (by decide)

end ToyIP.Stack.TcpLookup
