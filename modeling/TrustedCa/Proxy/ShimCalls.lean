import TrustedCa.Proxy.Shim

/-!
# The calls of the preloaded library

What each call does to a process. The conversions open a second socket and move it under the
application's descriptor, so their outcome is `Process.install` at that descriptor, or only a file
that nothing refers to when they fail. Within one call nothing but the one open file changes
(`Process.modify_modify`), so the whole exchange with the proxy or the socket vendor is one change
of it.

* `connect_cases`, `bind_cases`, `epollCtlAdd_cases`, `listen_cases` and `accept4_cases` are what
  later modules use in place of the definitions.
-/

namespace TrustedCa
namespace Proxy
namespace Shim

open Preload (Libc Outcome socks5ClientConnect)
open SocketVendor (AF_UNIX AF_VSOCK O_NONBLOCK SOCK_STREAM)

def vsock : File := { domain := AF_VSOCK, type := SOCK_STREAM }

def uds : File := { domain := AF_UNIX, type := SOCK_STREAM }

/-! ## Descriptors -/

namespace Process

variable {p : Process} {fd v i : Nat} {f f' : File} {g g' : File → File}

theorem file_eq_some : p.file fd = some f ↔ ∃ i, p.table fd = some i ∧ p.files[i]? = some f :=
  Option.bind_eq_some_iff

theorem file_install (p : Process) (fd : Nat) (f : File) : (p.install fd f).file fd = some f := by
  simp [file, install]

theorem modify_of_table (h : p.table fd = some i) :
    p.modify fd g = { p with files := p.files.modify i g } := by
  rw [modify, h]

theorem modify_of_none (h : p.table fd = none) : p.modify fd g = p := by
  rw [modify, h]

@[simp] theorem table_modify (p : Process) (fd : Nat) (g : File → File) :
    (p.modify fd g).table = p.table := by
  unfold modify
  split <;> rfl

@[simp] theorem epoll_modify (p : Process) (fd : Nat) (g : File → File) :
    (p.modify fd g).epoll = p.epoll := by
  unfold modify
  split <;> rfl

theorem file_modify (p : Process) (fd : Nat) (g : File → File) :
    (p.modify fd g).file fd = (p.file fd).map g := by
  cases h : p.table fd with
  | none => simp [modify_of_none h, file, h]
  | some i => simp [modify_of_table h, file, h]

theorem modify_modify : (p.modify fd g).modify fd g' = p.modify fd fun f => g' (g f) := by
  cases h : p.table fd with
  | none => rw [modify_of_none h, modify_of_none h, modify_of_none h]
  | some i =>
    have h' : ({ p with files := p.files.modify i g } : Process).table fd = some i := h
    rw [modify_of_table h, modify_of_table h', modify_of_table h, List.modify_modify_eq]
    rfl

/-- What is written to an open file depends on that file only. -/
theorem modify_const (h : p.file fd = some f) : p.modify fd g = p.modify fd fun _ => g f := by
  obtain ⟨i, hi, hf⟩ := file_eq_some.mp h
  rw [modify_of_table hi, modify_of_table hi]
  congr 1
  refine List.ext_getElem? fun j => ?_
  rw [List.getElem?_modify, List.getElem?_modify]
  by_cases hij : i = j
  · subst hij
    simp [hf]
  · simp [hij]

theorem modify_concat (fs : List File) (f : File) (g : File → File) :
    (fs ++ [f]).modify fs.length g = fs ++ [g f] := by
  induction fs with
  | nil => rfl
  | cons f₁ fs ih => exact congrArg (f₁ :: ·) ih

theorem install_modify : (p.install fd f).modify fd g = p.install fd (g f) := by
  have htable : (p.install fd f).table fd = some p.files.length := by simp [install]
  rw [modify_of_table htable]
  exact congrArg (fun fs => Process.mk fs _ p.epoll) (modify_concat p.files f g)

theorem modify_self (h : p.file fd = some f) : p = p.modify fd fun _ => f := by
  obtain ⟨i, hi, hf⟩ := file_eq_some.mp h
  rw [modify_of_table hi]
  refine congrArg (fun fs => Process.mk fs p.table p.epoll) (List.ext_getElem? fun j => ?_)
  rw [List.getElem?_modify]
  by_cases hij : i = j
  · subst hij
    simp [hf]
  · simp [hij]

/-- The new descriptor of a conversion is closed at its end. -/
theorem install_dup2_close (hfresh : p.table v = none) (hne : fd ≠ v) :
    ((p.install v f).dup2 v fd).close v = p.install fd f := by
  unfold install dup2 close
  congr 1
  funext k
  simp only [Function.update_apply]
  grind

theorem install_close (hfresh : p.table v = none) :
    (p.install v f).close v = { p with files := p.files ++ [f] } := by
  unfold install close
  congr 1
  funext k
  simp only [Function.update_apply]
  grind

theorem modify_close (hne : fd ≠ v) : (p.modify fd g).close v = (p.close v).modify fd g := by
  have htable : (p.close v).table fd = p.table fd := Function.update_of_ne hne _ _
  cases h : p.table fd with
  | none => rw [modify_of_none h, modify_of_none (htable.trans h)]
  | some i =>
    rw [modify_of_table h, modify_of_table (htable.trans h)]
    rfl

end Process

/-! ## Calls -/

section Cases

variable {p p' : Process} {k : Kernel} {fd : Nat} {f f' : File} {addr : Sockaddr} {ret : Int}

theorem File.connect_eq_some {e : Endpoint} (h : f.connect e = some f') :
    (e.Suits f ∧ (f.type = SOCK_STREAM → f.peer = none ∧ f.listening = false) ∧
        f' = { f with peer := some e }) ∨
      (e.family = AF_UNSPEC ∧ f.isIp ∧ f' = { f with peer := none }) := by
  unfold File.connect at h
  split at h
  · next hsuits => exact .inl ⟨hsuits.1, hsuits.2, (Option.some.inj h).symm⟩
  · split at h
    · next hip => exact .inr ⟨hip.1, hip.2, (Option.some.inj h).symm⟩
    · cases h

theorem libcConnect_cases {e : Endpoint} (h : libcConnect p k fd e = (p', ret)) :
    (ret = -1 ∧ p' = p) ∨ (ret = 0 ∧ ∃ f f', p.file fd = some f ∧ f.connect e = some f' ∧
      p' = p.modify fd fun _ => f') := by
  unfold libcConnect at h
  split at h
  · cases h
    exact .inl ⟨rfl, rfl⟩
  · next f' hf' =>
    obtain ⟨f, hf, hconnect⟩ := Option.bind_eq_some_iff.mp hf'
    split at h
    · cases h
      exact .inr ⟨rfl, f, f', hf, hconnect, rfl⟩
    · cases h
      exact .inl ⟨rfl, rfl⟩

/-- A socket that a proxied `connect` leaves behind: it is not connected, or its handshake was
sent. -/
def Dialled (k : Kernel) (addr : Sockaddr) (f f' : File) (ret : Int) : Prop :=
  (ret = -1 ∧ ∃ fl, f' = { f with flags := fl }) ∨
    ∃ fl o, f.domain = AF_VSOCK ∧ (f.type = SOCK_STREAM → f.peer = none) ∧
      socks5ClientConnect k.libc k.fuel addr k.reads = some o ∧ ret = o.ret ∧
      f' = { f with flags := fl, peer := some .proxy, sent := f.sent ++ [.handshake o.sent] }

theorem connectProxy_cases {fl : UInt32} (hf : p.file fd = some f)
    (h : connectProxy p k fd addr fl = some (p', ret)) :
    ∃ f', p' = (p.modify fd fun _ => f') ∧ Dialled k addr f f' ret := by
  unfold connectProxy at h
  dsimp only at h
  generalize hc : libcConnect (p.setfl fd (fl &&& ~~~O_NONBLOCK)) k fd .proxy = r at h
  obtain ⟨p₁, ret₁⟩ := r
  have hset : ∀ fl, (p.file fd).map (fun f => { f with flags := SocketVendor.setfl f.flags fl }) =
      (p.setfl fd fl).file fd := fun fl => (Process.file_modify _ _ _).symm
  rcases libcConnect_cases hc with ⟨rfl, rfl⟩ | ⟨rfl, f₁, f₂, hf₁, hconnect, rfl⟩
  · cases h
    have hset' : ((p.setfl fd (fl &&& ~~~O_NONBLOCK)).setfl fd fl) = _ :=
      Process.modify_modify.trans (Process.modify_const hf)
    exact ⟨_, hset', .inl ⟨rfl, _, rfl⟩⟩
  · rw [← hset, hf] at hf₁
    cases hf₁
    obtain ⟨o, ho, h⟩ := Option.bind_eq_some_iff.mp h
    cases h
    rcases File.connect_eq_some hconnect with ⟨hsuits, hpeer, rfl⟩ | ⟨hfamily, -, -⟩
    · have hdialled : Dialled k addr f _ o.ret :=
        .inr ⟨SocketVendor.setfl (SocketVendor.setfl f.flags (fl &&& ~~~O_NONBLOCK)) fl, o,
          hsuits.1.symm, fun ht => (hpeer ht).1, ho, rfl, rfl⟩
      refine ⟨_, ?_, hdialled⟩
      simp only [Process.setfl, Process.send, Process.modify_modify]
    · cases hfamily

/-- `ConvertToVsock` gives the descriptor a new VSOCK socket, or it fails. -/
theorem convertToVsock_cases (hf : p.file fd = some f)
    (hfresh : ∀ v, k.socket = some v → p.table v = none) :
    (k.socket.isSome ∧ k.dup2 = true ∧ (convertToVsock p k fd).1 = p.install fd vsock) ∨
      (¬ (k.socket.isSome ∧ k.dup2 = true) ∧ ∃ fs : List File, (∀ f ∈ fs, f = vsock) ∧
        (convertToVsock p k fd).1 = { p with files := p.files ++ fs }) := by
  unfold convertToVsock
  cases hs : k.socket with
  | none => exact .inr ⟨by simp, [], nofun, by rw [List.append_nil]⟩
  | some v =>
    have hv := hfresh v hs
    have hne : fd ≠ v := by
      rintro rfl
      obtain ⟨i, hi, -⟩ := Process.file_eq_some.mp hf
      rw [hv] at hi
      cases hi
    cases hd : k.dup2 with
    | true =>
      simp only [Bool.not_true, Bool.false_eq_true, if_false]
      exact .inl ⟨rfl, trivial, Process.install_dup2_close hv hne⟩
    | false =>
      simp only [Bool.not_false, if_true]
      exact .inr ⟨by simp, [vsock], by simp, Process.install_close hv⟩

/-- More files change no descriptor. -/
theorem file_append (fs : List File) (hf : p.file fd = some f) :
    ({ p with files := p.files ++ fs } : Process).file fd = some f := by
  obtain ⟨i, hi, hf⟩ := Process.file_eq_some.mp hf
  have hlt : i < p.files.length := (List.getElem?_eq_some_iff.mp hf).1
  exact Process.file_eq_some.mpr ⟨i, hi, (List.getElem?_append_left hlt).trans hf⟩

/-- What `connect` does. -/
inductive Connects (p : Process) (k : Kernel) (fd : Nat) (addr : Sockaddr) (p' : Process)
    (ret : Int) : Prop
  | libc : (∀ f, p.file fd = some f → ¬ Proxied f addr) →
    libcConnect p k fd (.addr addr) = (p', ret) → Connects p k fd addr p' ret
  | connected {f f' : File} : p.file fd = some f → Proxied f addr → f.domain = AF_VSOCK →
    Dialled k addr f f' ret → p' = (p.modify fd fun _ => f') → Connects p k fd addr p' ret
  | converted {f f' : File} : p.file fd = some f → Proxied f addr → f.isIp →
    Dialled k addr vsock f' ret → p' = p.install fd f' → Connects p k fd addr p' ret
  | failed {f : File} {fl : UInt32} {fs : List File} : p.file fd = some f → Proxied f addr →
    f.isIp → ret = -1 → (∀ f ∈ fs, f = vsock) →
    p' = (({ p with files := p.files ++ fs } : Process).modify fd fun _ => { f with flags := fl }) →
    Connects p k fd addr p' ret

theorem connect_cases (hfresh : ∀ v, k.socket = some v → p.table v = none)
    (h : connect p k fd addr = some (p', ret)) : Connects p k fd addr p' ret := by
  unfold connect at h
  split at h
  · next hnone => exact .libc (fun f hf => by rw [hnone] at hf; cases hf) (Option.some.inj h)
  · next f hf =>
    split at h
    · next hno =>
      refine .libc (fun f₁ hf₁ => ?_) (Option.some.inj h)
      rw [hf] at hf₁
      cases hf₁
      exact hno
    · next hproxied =>
      have hproxied : Proxied f addr := not_not.mp hproxied
      split at h
      · next hv =>
        obtain ⟨f', hp', hd⟩ := connectProxy_cases hf h
        exact .connected hf hproxied hv hd hp'
      · next hv =>
        have hip : f.isIp := hproxied.2.1.resolve_right hv
        dsimp only at h
        rcases convertToVsock_cases hf hfresh with ⟨-, -, hconvert⟩ | ⟨-, fs, hfs, hconvert⟩
        · rw [hconvert] at h
          obtain ⟨f', rfl, hd⟩ := connectProxy_cases (Process.file_install p fd vsock) h
          exact .converted hf hproxied hip hd Process.install_modify
        · rw [hconvert] at h
          obtain ⟨f', rfl, hd⟩ := connectProxy_cases (file_append fs hf) h
          rcases hd with ⟨rfl, fl, rfl⟩ | ⟨_, _, hdomain, -⟩
          · exact .failed hf hproxied hip rfl hfs rfl
          · exact absurd hdomain hv

/-- A socket that a vended `bind` leaves behind: it is not connected, or the request was sent. -/
def Binds (k : Kernel) (addr : Sockaddr) (f' : File) (ret : Int) : Prop :=
  (ret = -1 ∧ f' = uds) ∨
    ∃ fl, f' = { uds with flags := fl, peer := some .vendor,
                          sent := [.bind { port := ntohs addr.portBytes } k.send] } ∧
      (ret = -1 ∨ ret = 0 ∧ k.send = SocketVendor.sizeofBindRequest)

theorem bindVendor_cases {q : Process} {fl : UInt32} (hf : q.file fd = some uds)
    (h : bindVendor q k fd addr fl = (p', ret)) :
    ∃ f', p' = (q.modify fd fun _ => f') ∧ Binds k addr f' ret := by
  unfold bindVendor at h
  generalize hc : libcConnect q k fd .vendor = r at h
  obtain ⟨p₁, ret₁⟩ := r
  rcases libcConnect_cases hc with ⟨rfl, rfl⟩ | ⟨rfl, f₁, f₂, hf₁, hconnect, rfl⟩
  · cases h
    exact ⟨uds, Process.modify_self hf, .inl ⟨rfl, rfl⟩⟩
  · rw [hf] at hf₁
    cases hf₁
    rcases File.connect_eq_some hconnect with ⟨-, -, rfl⟩ | ⟨hfamily, -, -⟩
    · have hsent (fl : UInt32) {ret : Int}
          (hret : ret = -1 ∨ ret = 0 ∧ k.send = SocketVendor.sizeofBindRequest) :
          Binds k addr { uds with flags := fl, peer := some .vendor,
                                  sent := [.bind { port := ntohs addr.portBytes } k.send] } ret :=
        .inr ⟨fl, rfl, hret⟩
      have hsend : (q.modify fd fun _ => { uds with peer := some .vendor }).send fd
            (.bind { port := ntohs addr.portBytes } k.send) =
          q.modify fd fun _ => { uds with
            peer := some .vendor
            sent := [.bind { port := ntohs addr.portBytes } k.send] } := Process.modify_modify
      dsimp only at h
      rw [if_neg (by decide), hsend] at h
      split at h
      · cases h
        exact ⟨_, rfl, hsent _ (.inl rfl)⟩
      · next hwhole =>
        split at h
        · cases h
          exact ⟨_, rfl, hsent _ (.inl rfl)⟩
        · split at h
          · cases h
            exact ⟨_, rfl, hsent _ (.inl rfl)⟩
          · cases h
            exact ⟨_, Process.modify_modify, hsent _ (.inr ⟨rfl, not_not.mp hwhole⟩)⟩
    · cases hfamily

/-- What `bind` does. -/
inductive BindsTo (p : Process) (k : Kernel) (fd : Nat) (addr : Sockaddr) (p' : Process) :
    Option Int → Prop
  | libc : (∀ f, p.file fd = some f → ¬ Vended f addr) → p' = p → BindsTo p k fd addr p' none
  | vended {f f' : File} {ret : Int} : p.file fd = some f → Vended f addr →
    k.socket.isSome ∧ k.dup2 = true → Binds k addr f' ret → p' = p.install fd f' →
    BindsTo p k fd addr p' (some ret)
  | failed {f : File} {fs : List File} : p.file fd = some f → Vended f addr →
    ¬ (k.socket.isSome ∧ k.dup2 = true) → (∀ f ∈ fs, f = uds) →
    p' = { p with files := p.files ++ fs } → BindsTo p k fd addr p' (some (-1))

theorem bind_cases {ret : Option Int} (hfresh : ∀ v, k.socket = some v → p.table v = none)
    (h : bind p k fd addr = (p', ret)) : BindsTo p k fd addr p' ret := by
  unfold bind at h
  split at h
  · next hnone =>
    cases h
    exact .libc (fun f hf => by rw [hnone] at hf; cases hf) rfl
  · next f hf =>
    split at h
    · next hno =>
      cases h
      refine .libc (fun f₁ hf₁ => ?_) rfl
      rw [hf] at hf₁
      cases hf₁
      exact hno
    · next hvended =>
      have hvended : Vended f addr := not_not.mp hvended
      split at h
      · next hs =>
        cases h
        exact .failed hf hvended (by simp [hs]) (List.forall_mem_nil _) (by rw [List.append_nil])
      · next v hs =>
        have hv := hfresh v hs
        have hne : fd ≠ v := by
          rintro rfl
          obtain ⟨i, hi, -⟩ := Process.file_eq_some.mp hf
          rw [hv] at hi
          cases hi
        dsimp only at h
        split at h
        · next hd =>
          cases h
          have huds : ∀ f ∈ [uds], f = uds := fun f hf => List.mem_singleton.mp hf
          exact .failed hf hvended (by simpa using fun _ => hd) huds (Process.install_close hv)
        · next hd =>
          have hfile : ((p.install v uds).dup2 v fd).file fd = some uds := by
            simp [Process.file, Process.dup2, Process.install]
          generalize hb : bindVendor _ _ _ _ _ = r at h
          obtain ⟨p₁, ret₁⟩ := r
          obtain ⟨f', rfl, hbinds⟩ := bindVendor_cases hfile hb
          cases h
          refine .vended hf hvended (by simpa [hs] using hd) hbinds ?_
          dsimp only
          rw [Process.modify_close hne, Process.install_dup2_close hv hne, Process.install_modify]

/-- What `epoll_ctl` does with `EPOLL_CTL_ADD`: the descriptor refers to the file `i` of `q`. -/
inductive Registers (p : Process) (k : Kernel) (epfd fd : Nat) (p' : Process) (ret : Int) : Prop
  | libc : (∀ f, p.file fd = some f → ¬ (f.type = SOCK_STREAM ∧ f.isIp)) →
    libcEpollAdd p k epfd fd = (p', ret) → Registers p k epfd fd p' ret
  | converted {f f' : File} : p.file fd = some f → f.type = SOCK_STREAM → f.isIp →
    f'.type = SOCK_STREAM → f'.domain = AF_VSOCK → f'.peer = none → f'.sent = [] →
    libcEpollAdd (p.install fd f') k epfd fd = (p', ret) → Registers p k epfd fd p' ret
  | failed {f : File} {fl : UInt32} {fs : List File} : p.file fd = some f →
    f.type = SOCK_STREAM → f.isIp → ¬ (k.socket.isSome ∧ k.dup2 = true) → (∀ f ∈ fs, f = vsock) →
    libcEpollAdd (({ p with files := p.files ++ fs } : Process).modify fd fun _ =>
      { f with flags := fl }) k epfd fd = (p', ret) → Registers p k epfd fd p' ret

theorem epollCtlAdd_cases {epfd : Nat} (hfresh : ∀ v, k.socket = some v → p.table v = none)
    (h : epollCtlAdd p k epfd fd = (p', ret)) : Registers p k epfd fd p' ret := by
  unfold epollCtlAdd at h
  split at h
  · next hnone => exact .libc (fun f hf => by rw [hnone] at hf; cases hf) h
  · next f hf =>
    split at h
    · next hno =>
      refine .libc (fun f₁ hf₁ hip => ?_) h
      rw [hf] at hf₁
      cases hf₁
      rcases hno with hno | hno
      · exact hno hip.1
      · exact hno hip.2
    · next hyes =>
      obtain ⟨htype, hip⟩ := not_or.mp hyes
      have htype := not_not.mp htype
      have hip := not_not.mp hip
      dsimp only at h
      rcases convertToVsock_cases hf hfresh with ⟨-, -, hconvert⟩ | ⟨hno, fs, hfs, hconvert⟩
      · rw [hconvert, Process.setfl, Process.install_modify] at h
        exact .converted hf htype hip rfl rfl rfl rfl h
      · rw [hconvert, Process.setfl, Process.modify_const (file_append fs hf)] at h
        exact .failed hf htype hip hno hfs h

theorem libcEpollAdd_cases {epfd : Nat} (h : libcEpollAdd p k epfd fd = (p', ret)) :
    p' = p ∨ ∃ i, p.table fd = some i ∧ p' = { p with epoll := ⟨epfd, fd, i⟩ :: p.epoll } := by
  unfold libcEpollAdd at h
  split at h
  · cases h
    exact .inl rfl
  · next i hi =>
    split at h
    · cases h
      exact .inr ⟨i, hi, rfl⟩
    · cases h
      exact .inl rfl

theorem libcEpollAdd_files {epfd : Nat} (h : libcEpollAdd p k epfd fd = (p', ret)) :
    p'.files = p.files ∧ p'.table = p.table := by
  rcases libcEpollAdd_cases h with rfl | ⟨i, -, rfl⟩ <;> exact ⟨rfl, rfl⟩

/-- What `listen` does. -/
theorem listen_cases {backlog : Int32} (h : listen p k fd backlog = (p', ret)) :
    ∃ g : File → File, (∀ f, (g f).domain = f.domain ∧ (g f).type = f.type) ∧
      p' = p.modify fd g := by
  have hself : p = p.modify fd id := by
    cases hi : p.table fd with
    | none => rw [Process.modify_of_none hi]
    | some i => rw [Process.modify_of_table hi, List.modify_id]
  have modified {g : File → File} (hp : p' = p.modify fd g)
      (hg : ∀ f, (g f).domain = f.domain ∧ (g f).type = f.type) :
      ∃ g : File → File, (∀ f, (g f).domain = f.domain ∧ (g f).type = f.type) ∧
        p' = p.modify fd g := ⟨g, hg, hp⟩
  unfold listen at h
  split at h
  · cases h
    exact modified hself fun _ => ⟨rfl, rfl⟩
  · split at h
    · split at h
      · cases h
        exact modified rfl fun _ => ⟨rfl, rfl⟩
      · cases h
        exact modified hself fun _ => ⟨rfl, rfl⟩
    · dsimp only at h
      split at h
      · cases h
        exact modified rfl fun _ => ⟨rfl, rfl⟩
      · split at h
        · cases h
          exact modified Process.modify_modify fun _ => ⟨rfl, rfl⟩
        · split at h
          · cases h
            exact modified Process.modify_modify fun _ => ⟨rfl, rfl⟩
          · cases h
            exact modified ((congrArg (Process.setfl · fd _) Process.modify_modify).trans
              Process.modify_modify) fun _ => ⟨rfl, rfl⟩

/-- What `accept4` does. -/
theorem accept4_cases {addrlen : Option Nat} {flags : UInt32}
    (hfresh : ∀ v, k.socket = some v → p.table v = none)
    (h : accept4 p k fd addrlen flags = some (p', ret)) :
    p' = p ∨ ∃ v f, p.table v = none ∧ p' = p.install v f := by
  unfold accept4 at h
  split at h
  · split at h
    · next hsock =>
      split at h
      · cases h
        exact .inr ⟨_, _, hfresh _ hsock, rfl⟩
      · cases h
        exact .inl rfl
    · cases h
      exact .inl rfl
  · cases h
    exact .inl rfl
  · split at h
    · cases h
    · next hfree =>
      cases h
      exact .inr ⟨_, _, Option.not_isSome_iff_eq_none.mp hfree, rfl⟩

end Cases

theorem step_eq_some {p : Process} {k : Kernel} {c : Call} {r : Process × Option Int}
    (h : step p k c = some r) :
    (∀ v, k.socket = some v → p.table v = none) ∧ call p k c = some r := by
  unfold step at h
  split at h
  · cases h
  · next hfree =>
    refine ⟨fun v hv => ?_, h⟩
    rw [hv, Option.any_some] at hfree
    exact Option.not_isSome_iff_eq_none.mp hfree

end Shim
end Proxy
end TrustedCa
