import TrustedCa.Proxy.ShimCalls

/-!
# No TCP leaves a process under the preloaded library

`File.Sound` is what every open file keeps: the library makes no TCP connection, and it speaks to
the proxy and to the socket vendor only, each time from the start. `sockets_contained` is what that
means for the application's descriptors.
-/

namespace TrustedCa
namespace Proxy
namespace Shim

open Preload (Libc Outcome request socks5ClientConnect)
open SocketVendor (AF_INET AF_UNIX AF_VSOCK SOCK_STREAM)

/-! ## Soundness -/

/-- What the library has sent on a socket: nothing; the handshake of one `connect`, to the proxy;
the request of one `bind` and then requests to listen, to the socket vendor; or requests to listen
on a connected socket of the application. -/
inductive File.Speaks (f : File) : Prop
  | nothing : f.sent = [] → Speaks f
  | proxy {a : Sockaddr} : f.domain = AF_VSOCK → f.type = SOCK_STREAM → f.peer = some .proxy →
    a.IsIp → f.sent = [.handshake (request a)] → Speaks f
  | vendor {req : SocketVendor.BindRequest} {n : Int} {ms : List Message} : f.domain = AF_UNIX →
    f.type = SOCK_STREAM → f.peer = some .vendor → f.sent = .bind req n :: ms →
    (∀ m ∈ ms, ∃ req n, m = .listen req n) → Speaks f
  | own {e : Endpoint} : f.domain = AF_UNIX → f.peer = some e → e ≠ .proxy → e ≠ .vendor →
    (∀ m ∈ f.sent, ∃ req n, m = .listen req n) → Speaks f

/-- What holds of every open file. A TCP socket has no peer but one that has connected to it. -/
structure File.Sound (f : File) : Prop where
  tcp : f.type = SOCK_STREAM → f.isIp → f.peer = none ∨ f.peer = some .inbound
  vendor : f.peer = some .vendor → f.sent ≠ []
  proxy : f.peer = some .proxy → f.domain = AF_VSOCK
  speaks : f.Speaks

def Process.Sound (p : Process) : Prop := ∀ f ∈ p.files, f.Sound

section Soundness

variable {p p' : Process} {k : Kernel} {fd : Nat} {f f' : File} {addr : Sockaddr} {ret : Int}

theorem not_isIp_of_unix (h : f.domain = AF_UNIX) : ¬ f.isIp := by
  intro hip
  rw [File.isIp, h] at hip
  exact absurd hip (by decide)

theorem not_isIp_of_vsock (h : f.domain = AF_VSOCK) : ¬ f.isIp := by
  intro hip
  rw [File.isIp, h] at hip
  exact absurd hip (by decide)

/-- The flags and whether a socket listens do not matter. -/
theorem File.Sound.congr (hf : f.Sound) (hdomain : f'.domain = f.domain) (htype : f'.type = f.type)
    (hpeer : f'.peer = f.peer) (hsent : f'.sent = f.sent) : f'.Sound := by
  obtain ⟨tcp, vendor, proxy, speaks⟩ := hf
  refine ⟨?_, ?_, ?_, ?_⟩
  · rw [File.isIp, htype, hdomain, hpeer]
    exact tcp
  · rw [hpeer, hsent]
    exact vendor
  · rw [hpeer, hdomain]
    exact proxy
  · cases speaks with
    | nothing h => exact .nothing (hsent.trans h)
    | proxy h₁ h₂ h₃ ha h =>
      exact .proxy (hdomain.trans h₁) (htype.trans h₂) (hpeer.trans h₃) ha (hsent.trans h)
    | vendor h₁ h₂ h₃ h hms =>
      exact .vendor (hdomain.trans h₁) (htype.trans h₂) (hpeer.trans h₃) (hsent.trans h) hms
    | own h₁ h₃ he he' hms =>
      exact .own (hdomain.trans h₁) (hpeer.trans h₃) he he' (hsent ▸ hms)

/-- A socket on which the library has not spoken. -/
theorem File.Sound.of_silent (hsent : f.sent = [])
    (hpeer : f.peer = none ∨ f.peer = some .inbound) : f.Sound := by
  refine ⟨fun _ _ => hpeer, fun h => ?_, fun h => ?_, .nothing hsent⟩
  · rcases hpeer with hp | hp <;> rw [hp] at h <;> cases h
  · rcases hpeer with hp | hp <;> rw [hp] at h <;> cases h

/-- An unconnected VSOCK stream has not been spoken on. -/
theorem File.Sound.silent (hf : f.Sound) (hpeer : f.peer = none) : f.sent = [] := by
  cases hf.speaks with
  | nothing h => exact h
  | proxy _ _ h | vendor _ _ h | own _ h =>
    rw [hpeer] at h
    cases h

/-- The application connects a socket. -/
theorem File.Sound.connect (hf : f.Sound) (hno : ¬ Proxied f addr)
    (h : f.connect (.addr addr) = some f') : f'.Sound := by
  rcases File.connect_eq_some h with ⟨⟨hfamily, hsuits⟩, hpeer, rfl⟩ | ⟨-, hip, rfl⟩
  · have htcp : ¬ (f.type = SOCK_STREAM ∧ f.isIp) := by
      rintro ⟨htype, hip⟩
      obtain ⟨a, ha, hisIp⟩ := hsuits hip
      cases ha
      exact hno ⟨htype, .inl hip, hisIp⟩
    refine ⟨fun htype hip => absurd ⟨htype, hip⟩ htcp, nofun, nofun, ?_⟩
    cases hf.speaks with
    | nothing h => exact .nothing h
    | proxy hdomain htype hproxy =>
      rw [(hpeer htype).1] at hproxy
      cases hproxy
    | vendor hdomain htype hvendor =>
      rw [(hpeer htype).1] at hvendor
      cases hvendor
    | own hdomain _ _ _ hms => exact .own hdomain rfl nofun nofun hms
  · refine ⟨fun _ _ => .inl rfl, nofun, nofun, ?_⟩
    cases hf.speaks with
    | nothing h => exact .nothing h
    | proxy hdomain => exact absurd hip (not_isIp_of_vsock hdomain)
    | vendor hdomain => exact absurd hip (not_isIp_of_unix hdomain)
    | own hdomain => exact absurd hip (not_isIp_of_unix hdomain)

theorem handshake_sent {libc : Libc} {n : Nat} {sock : Preload.Socket} {o : Outcome}
    (ha : addr.IsIp) (h : socks5ClientConnect libc n addr sock = some o) :
    o.sent = request addr := by
  have hlen : (fillAddrPort addr).length ≠ 0 := by
    rw [fillAddrPort_length]
    cases addr with
    | inet _ _ | inet6 _ _ => exact Nat.succ_ne_zero _
    | other _ => cases ha
  unfold socks5ClientConnect at h
  rw [if_neg hlen] at h
  split at h
  · cases h
    rfl
  · obtain ⟨⟨buffer, sock₁⟩, -, h⟩ := Option.bind_eq_some_iff.mp h
    dsimp only at h
    split at h
    · cases h
      rfl
    · split at h
      · cases h
        rfl
      · split at h
        · cases h
          rfl
        · obtain ⟨⟨rest, sock₂⟩, -, h⟩ := Option.bind_eq_some_iff.mp h
          cases h
          rfl

theorem Dialled.sound (hd : Dialled k addr f f' ret) (hf : f.Sound) (htype : f.type = SOCK_STREAM)
    (ha : addr.IsIp) : f'.Sound := by
  rcases hd with ⟨-, fl, rfl⟩ | ⟨fl, o, hdomain, hpeer, ho, -, rfl⟩
  · exact hf.congr rfl rfl rfl rfl
  · have hip : ¬ f.isIp := not_isIp_of_vsock hdomain
    refine ⟨fun _ h => absurd h hip, nofun, fun _ => hdomain, ?_⟩
    refine .proxy hdomain htype rfl ha ?_
    rw [hf.silent (hpeer htype), handshake_sent ha ho, List.nil_append]

theorem Binds.sound (hb : Binds k addr f' ret) : f'.Sound := by
  rcases hb with ⟨-, rfl⟩ | ⟨fl, rfl, -⟩
  · exact .of_silent rfl (.inl rfl)
  · exact ⟨fun _ hip => absurd hip (not_isIp_of_unix rfl), fun _ => List.cons_ne_nil _ _, nofun,
      .vendor rfl rfl rfl rfl (List.forall_mem_nil _)⟩

/-- `listen` on a connected UNIX socket. -/
theorem File.Sound.listen {req : SocketVendor.ListenRequest} {n : Int} (hf : f.Sound)
    (hdomain : f.domain = AF_UNIX) (hpeer : f.peer ≠ none) :
    ({ f with sent := f.sent ++ [.listen req n] } : File).Sound := by
  have hmem {ms : List Message} (hms : ∀ m ∈ ms, ∃ req n, m = Message.listen req n) :
      ∀ m ∈ ms ++ [.listen req n], ∃ req n, m = Message.listen req n := by
    intro m hm
    rcases List.mem_append.mp hm with hm | hm
    · exact hms m hm
    · exact ⟨req, n, List.mem_singleton.mp hm⟩
  have hip : ¬ f.isIp := not_isIp_of_unix hdomain
  refine ⟨fun _ h => absurd h hip, fun _ => by simp, hf.proxy, ?_⟩
  cases hf.speaks with
  | nothing h =>
    obtain ⟨e, he⟩ := Option.ne_none_iff_exists'.mp hpeer
    refine .own hdomain he ?_ ?_ (by rw [h]; exact hmem (List.forall_mem_nil _))
    · rintro rfl
      have hvsock := hf.proxy he
      rw [hdomain] at hvsock
      exact absurd hvsock (by decide)
    · rintro rfl
      exact hf.vendor he h
  | proxy hvsock =>
    rw [hdomain] at hvsock
    exact absurd hvsock (by decide)
  | vendor h₁ h₂ h₃ h hms => exact .vendor h₁ h₂ h₃ (by rw [h]; rfl) (hmem hms)
  | own h₁ h₃ he he' hms => exact .own h₁ h₃ he he' (hmem hms)

theorem Process.Sound.file (hs : p.Sound) (hf : p.file fd = some f) : f.Sound := by
  obtain ⟨i, -, hi⟩ := Process.file_eq_some.mp hf
  exact hs f (List.mem_of_getElem? hi)

theorem Process.Sound.append (hs : p.Sound) {fs : List File} (hfs : ∀ f ∈ fs, f.Sound)
    (table : Nat → Option Nat) (epoll : List Registration) :
    (Process.mk (p.files ++ fs) table epoll).Sound := by
  intro f hf
  exact (List.mem_append.mp hf).elim (hs f) (hfs f)

theorem Process.Sound.install (hs : p.Sound) (hf : f.Sound) : (p.install fd f).Sound :=
  hs.append (fun _ h => List.mem_singleton.mp h ▸ hf) _ _

theorem Process.Sound.modify (hs : p.Sound) {g : File → File}
    (hg : ∀ f, p.file fd = some f → (g f).Sound) : (p.modify fd g).Sound := by
  cases hi : p.table fd with
  | none =>
    rw [Process.modify_of_none hi]
    exact hs
  | some i =>
    rw [Process.modify_of_table hi]
    intro f hf
    obtain ⟨j, hj⟩ := List.mem_iff_getElem?.mp hf
    rw [List.getElem?_modify] at hj
    by_cases hij : i = j
    · subst hij
      simp only [if_true] at hj
      obtain ⟨f₀, hf₀, rfl⟩ := Option.map_eq_some_iff.mp hj
      exact hg f₀ (Process.file_eq_some.mpr ⟨i, hi, hf₀⟩)
    · simp only [hij, if_false, id_map'] at hj
      exact hs f (List.mem_of_getElem? hj)

theorem libcConnect_sound (hs : p.Sound)
    (hno : ∀ f, p.file fd = some f → ¬ Proxied f addr)
    (h : libcConnect p k fd (.addr addr) = (p', ret)) : p'.Sound := by
  rcases libcConnect_cases h with ⟨-, rfl⟩ | ⟨-, f, f', hf, hconnect, rfl⟩
  · exact hs
  · exact hs.modify fun _ _ => (hs.file hf).connect (hno f hf) hconnect

theorem sound_vsock : vsock.Sound := .of_silent rfl (.inl rfl)

theorem connect_sound (hs : p.Sound) (hc : Connects p k fd addr p' ret) : p'.Sound := by
  cases hc with
  | libc hno h => exact libcConnect_sound hs hno h
  | connected hf hp _ hd hp' =>
    subst hp'
    exact hs.modify fun _ _ => hd.sound (hs.file hf) hp.1 hp.2.2
  | converted _ hp _ hd hp' =>
    subst hp'
    exact hs.install (hd.sound sound_vsock rfl hp.2.2)
  | failed hf _ _ _ hfs hp' =>
    subst hp'
    exact (hs.append (fun f hf => hfs f hf ▸ sound_vsock) _ _).modify
      fun _ _ => (hs.file hf).congr rfl rfl rfl rfl

theorem bind_sound {r : Option Int} (hs : p.Sound) (hb : BindsTo p k fd addr p' r) : p'.Sound := by
  cases hb with
  | libc _ hp' => exact hp' ▸ hs
  | vended _ _ _ hbinds hp' =>
    subst hp'
    exact hs.install hbinds.sound
  | failed _ _ _ hfs hp' =>
    subst hp'
    exact hs.append (fun f hf => hfs f hf ▸ .of_silent rfl (.inl rfl)) _ _

theorem epollCtlAdd_sound {epfd : Nat} (hs : p.Sound) (hr : Registers p k epfd fd p' ret) :
    p'.Sound := by
  cases hr with
  | libc _ h =>
    rw [Process.Sound, (libcEpollAdd_files h).1]
    exact hs
  | converted _ _ _ htype hdomain hpeer hsent h =>
    rw [Process.Sound, (libcEpollAdd_files h).1]
    exact hs.install (.of_silent hsent (.inl hpeer))
  | failed hf _ _ _ hfs h =>
    rw [Process.Sound, (libcEpollAdd_files h).1]
    exact (hs.append (fun f hf => hfs f hf ▸ sound_vsock) _ _).modify
      fun _ _ => (hs.file hf).congr rfl rfl rfl rfl

theorem setfl_sound (hs : p.Sound) (fl : UInt32) : (p.setfl fd fl).Sound :=
  hs.modify fun _ hf => (hs.file hf).congr rfl rfl rfl rfl

theorem listen_sound {backlog : Int32} (hs : p.Sound) (h : listen p k fd backlog = (p', ret)) :
    p'.Sound := by
  unfold listen at h
  split at h
  · cases h
    exact hs
  · next f hf =>
    split at h
    · split at h
      · cases h
        exact hs.modify fun _ hf => (hs.file hf).congr rfl rfl rfl rfl
      · cases h
        exact hs
    · next hunix =>
      obtain ⟨hdomain, hpeer⟩ := not_or.mp hunix
      have hsent : (p.send fd (.listen { backlog := backlog } k.send)).Sound := by
        refine hs.modify fun f₁ hf₁ => ?_
        rw [hf] at hf₁
        cases hf₁
        exact (hs.file hf).listen (not_not.mp hdomain) hpeer
      dsimp only at h
      split at h
      · cases h
        exact hsent
      · split at h
        · cases h
          exact setfl_sound hsent _
        · split at h
          · cases h
            exact setfl_sound hsent _
          · cases h
            exact setfl_sound (setfl_sound hsent _) _

theorem accept4_sound {addrlen : Option Nat} {flags : UInt32} (hs : p.Sound)
    (h : accept4 p k fd addrlen flags = some (p', ret)) : p'.Sound := by
  unfold accept4 at h
  split at h
  · split at h
    · split at h
      · cases h
        exact hs.install (.of_silent rfl (.inr rfl))
      · cases h
        exact hs
    · cases h
      exact hs
  · cases h
    exact hs
  · split at h
    · cases h
    · cases h
      exact hs.install (.of_silent rfl (.inr rfl))

/-- The files of a process stay sound under every call. -/
theorem step_sound {c : Call} {r : Option Int} (hs : p.Sound) (h : step p k c = some (p', r)) :
    p'.Sound := by
  obtain ⟨hfresh, h⟩ := step_eq_some h
  cases c with
  | socket domain type =>
    simp only [call] at h
    split at h
    · cases h
      exact hs
    · cases h
      exact hs.install (.of_silent rfl (.inl rfl))
  | close fd | epollDel epfd fd =>
    cases h
    exact hs
  | dup2 old new =>
    simp only [call] at h
    split at h <;> cases h <;> exact hs
  | epollAdd epfd fd =>
    cases h
    exact epollCtlAdd_sound hs (epollCtlAdd_cases hfresh rfl)
  | connect fd addr =>
    obtain ⟨r, hr, h⟩ := Option.map_eq_some_iff.mp h
    cases h
    exact connect_sound hs (connect_cases hfresh hr)
  | bind fd addr =>
    exact bind_sound hs (bind_cases hfresh (Option.some.inj h))
  | listen fd backlog =>
    cases h
    exact listen_sound hs rfl
  | accept4 fd addrlen flags =>
    obtain ⟨r, hr, h⟩ := Option.map_eq_some_iff.mp h
    cases h
    exact accept4_sound hs hr

theorem Reachable.sound (hr : Reachable p) : p.Sound := by
  induction hr with
  | start => exact List.forall_mem_nil _
  | step _ h ih => exact step_sound ih h

/-- No TCP leaves the process, and the library speaks its protocols. In every state of a process,
whatever the kernel answers: a TCP socket has no peer but one that has connected to it; what the
library has sent on a socket is one handshake to the proxy, or one request to bind and then requests
to listen to the socket vendor, or requests to listen on a connected UNIX socket of the application.
A `connect` of a TCP socket to an IP address that returns 0 leaves the descriptor on a VSOCK
connection to the proxy on which exactly the request for that address was sent, and a `bind` that
returns 0 leaves it on a connection to the socket vendor with exactly the request for the port. -/
theorem sockets_contained (hr : Reachable p) :
    (∀ f ∈ p.files, f.type = SOCK_STREAM → f.isIp → f.peer = none ∨ f.peer = some .inbound) ∧
    (∀ f ∈ p.files, f.Speaks) ∧
    (∀ k fd addr p', step p k (.connect fd addr) = some (p', some 0) → addr.IsIp →
      ∀ f, p.file fd = some f → f.type = SOCK_STREAM → f.isIp →
        ∃ f', p'.file fd = some f' ∧ f'.domain = AF_VSOCK ∧ f'.peer = some .proxy ∧
          f'.sent = [.handshake (request addr)]) ∧
    ∀ k fd addr p', step p k (.bind fd addr) = some (p', some 0) →
      ∃ f', p'.file fd = some f' ∧ f'.domain = AF_UNIX ∧ f'.peer = some .vendor ∧
        f'.sent = [.bind { port := ntohs addr.portBytes } SocketVendor.sizeofBindRequest] := by
  refine ⟨fun f hf => (hr.sound f hf).tcp, fun f hf => (hr.sound f hf).speaks, ?_, ?_⟩
  · intro k fd addr p' h ha f hf htype hip
    obtain ⟨hfresh, h⟩ := step_eq_some h
    obtain ⟨⟨p₁, ret⟩, hconnect, h⟩ := Option.map_eq_some_iff.mp h
    cases h
    have same {f₁ : File} (hf₁ : p.file fd = some f₁) : f₁ = f :=
      Option.some.inj (hf₁.symm.trans hf)
    cases connect_cases hfresh hconnect with
    | libc hno h => exact absurd ⟨htype, .inl hip, ha⟩ (hno f hf)
    | connected hf₁ _ hdomain =>
      rw [same hf₁] at hdomain
      exact absurd hip (not_isIp_of_vsock hdomain)
    | converted _ _ _ hd hp' =>
      subst hp'
      rcases hd with ⟨hret, -⟩ | ⟨fl, o, hdomain, -, ho, -, rfl⟩
      · cases hret
      · exact ⟨_, Process.file_install _ _ _, rfl, rfl, by rw [handshake_sent ha ho]; rfl⟩
    | failed _ _ _ hret => cases hret
  · intro k fd addr p' h
    obtain ⟨hfresh, h⟩ := step_eq_some h
    cases bind_cases hfresh (Option.some.inj h) with
    | vended _ _ _ hb hp' =>
      subst hp'
      rcases hb with ⟨hret, -⟩ | ⟨fl, rfl, hret⟩
      · cases hret
      · have hsend := hret.resolve_left nofun
        exact ⟨_, Process.file_install _ _ _, rfl, rfl, by rw [hsend.2]⟩

end Soundness

/-- `127.0.0.1:80`. -/
def localAddr : Sockaddr := .inet (arrayOf 4 [127, 0, 0, 1]) (arrayOf 2 [0, 80])

/-- The kernel when a handshake succeeds. -/
def dialling : Kernel where
  reads := [.data [5, 0, 5, 0, 0, 1, 127, 0, 0, 1, 0, 80]]
  fuel := 3

/-- A TCP socket that is connected without being registered. -/
theorem sockets_contained_connected : ∃ p p', Reachable p ∧
    step p { dialling with socket := some 4 } (.connect 3 localAddr) = some (p', some 0) ∧
    ∃ f, p'.file 3 = some f ∧ f.sent = [.handshake (request localAddr)] := by
  have hr := Reachable.step (k := { socket := some 3 }) (c := .socket AF_INET SOCK_STREAM)
    .start rfl
  obtain ⟨-, -, hconnect, -⟩ := sockets_contained hr
  obtain ⟨f, hf, -, -, hsent⟩ := hconnect { dialling with socket := some 4 } 3 localAddr _ rfl
    trivial _ rfl rfl (.inl rfl)
  exact ⟨_, _, hr, rfl, f, hf, hsent⟩

end Shim
end Proxy
end TrustedCa
