import SplitHorizon.CommandLine
import SplitHorizon.Files.Tree
import SplitHorizon.Proofs.Target
import SplitHorizon.Settings.Load
/-!
# Listening where the command line says

The address to listen on comes as one text. It is cut at its last colon, and the brackets around the
host are taken off; host and port are taken over into the settings, and the host is read as an
address only when the settings are checked. An address of 128 bits has colons of its own, in any
number. `loadsAs_listening` says that the parts come together again: with the text of an endpoint on
the command line the settings are loaded, and the endpoint of the settings is that one.
-/

namespace SplitHorizon

/-! ## The text of an address to listen on -/

namespace ListenAddress

theorem dropWhile_of_notMem {b : Char} {cs : List Char} (h : b ∉ cs) :
    cs.dropWhile (· == b) = cs := by
  cases cs with
  | nil => rfl
  | cons c cs => simp [Ne.symm (List.ne_of_not_mem_cons h)]

/-- A text without brackets is left as it is. -/
theorem bare_of_notMem {host : List Char} (hopen : '[' ∉ host) (hclose : ']' ∉ host) :
    bare host = host := by
  rw [bare, dropWhile_of_notMem hopen, dropWhile_of_notMem (by simpa using hclose),
    List.reverse_reverse]

/-- Brackets around a host are taken off. -/
theorem bare_brackets {host : List Char} (hopen : '[' ∉ host) (hclose : ']' ∉ host) :
    bare ('[' :: host ++ [']']) = host := by
  have hfront : ('[' :: host ++ [']']).dropWhile (· == '[') = host ++ [']'] := by
    rw [List.cons_append, List.dropWhile_cons_of_pos (by rfl), dropWhile_of_notMem]
    simp [hopen]
  have hback : (host ++ [']']).reverse.dropWhile (· == ']') = host.reverse := by
    rw [List.reverse_concat, List.dropWhile_cons_of_pos (by rfl), dropWhile_of_notMem]
    simp [hclose]
  rw [bare, hfront, hback, List.reverse_reverse]

/-- The last colon divides the text, since a port has none. -/
theorem ofText_append {host port : List Char} {n : UInt16} (hport : Decimal.read16 port = .ok n) :
    ofText (String.ofList (host ++ ':' :: port)) =
      .ok ⟨if (bare host).isEmpty then none else some (String.ofList (bare host)), n⟩ := by
  rw [ofText, String.toList_ofList, Text.cutLast_append_cons (Target.colon_notMem_of_read16 hport)]
  simp only [hport]

/-- Without a host there is only a port. -/
theorem ofText_port {port : String} {n : UInt16} (hport : Decimal.read16 port.toList = .ok n) :
    ofText (":" ++ port) = .ok ⟨none, n⟩ := by
  have htext : ":" ++ port = String.ofList ([] ++ ':' :: port.toList) := by
    apply String.toList_injective
    simp
  rw [htext, ofText_append hport]
  rfl

/-- **The text of an endpoint is taken apart into the text of its address and its port.** -/
theorem ofText_endpoint (a : Address) (port : UInt16) :
    ofText (Endpoint.ofAddress a port).toText = .ok ⟨some a.toText, port⟩ := by
  have hopen : '[' ∉ a.render := Address.notMem_render rfl
  have hclose : ']' ∉ a.render := Address.notMem_render rfl
  have hempty : a.render.isEmpty = false := List.isEmpty_eq_false_iff.mpr (Address.render_ne_nil a)
  have hport := Decimal.read16_digits port
  cases a with
  | v4 bits =>
    have hbare := bare_of_notMem hopen hclose
    have hrender : (Endpoint.ofAddress (.v4 bits) port).render =
        Address.render (.v4 bits) ++ ':' :: Decimal.digits port.toNat := rfl
    rw [Endpoint.toText, hrender, ofText_append hport, hbare, hempty]
    rfl
  | v6 bits =>
    have hbare := bare_brackets hopen hclose
    have hrender : (Endpoint.ofAddress (.v6 bits) port).render =
        ('[' :: Address.render (.v6 bits) ++ [']']) ++ ':' :: Decimal.digits port.toNat := by
      simp [Endpoint.ofAddress, Endpoint.render, Address.render]
    rw [Endpoint.toText, hrender, ofText_append hport, hbare, hempty]
    rfl

/-- The text of an endpoint does not look like an option. -/
theorem head?_toText_ne (a : Address) (port : UInt16) :
    (Endpoint.ofAddress a port).toText.toList.head? ≠ some '-' := by
  rw [Endpoint.toText, String.toList_ofList]
  cases a with
  | v4 bits =>
    obtain ⟨c, cs, hrender⟩ := List.exists_cons_of_ne_nil (Address.render_ne_nil (.v4 bits))
    have hdash : '-' ∉ Address.render (.v4 bits) := Address.notMem_render rfl
    rw [Address.render] at hrender hdash
    rw [hrender, List.mem_cons, not_or] at hdash
    simpa [Endpoint.ofAddress, Endpoint.render, hrender] using Ne.symm hdash.1
  | v6 bits => simp [Endpoint.ofAddress, Endpoint.render]

end ListenAddress

namespace Settings

/-! ## Settings that pass the check -/

/-- Settings pass exactly if each of their parts does. -/
theorem check_eq_ok_iff {s : Settings} :
    s.check = .ok () ↔ s.listen.port ≠ 0 ∧ (∃ e, s.endpoint = .ok e) ∧
      (Text.trim s.answers.path.toList).isEmpty = false ∧ s.answers.ttl ≤ maxTtl ∧
      s.listen.idleSeconds ≠ 0 ∧ s.targets.milliseconds ≠ 0 := by
  unfold check
  simp only [throw_bind, ite_throw_eq_ok_iff, bind_eq_ok_iff]
  constructor
  · intro h
    obtain ⟨hport, e, he, hpath, httl, hidle, htime, _⟩ := h
    exact ⟨hport, ⟨e, he⟩, Bool.not_eq_true _ ▸ hpath, UInt32.not_lt.mp httl, hidle, htime⟩
  · intro h
    obtain ⟨hport, ⟨e, he⟩, hpath, httl, hidle, htime⟩ := h
    exact ⟨hport, e, he, Bool.not_eq_true _ ▸ hpath, UInt32.not_lt.mpr httl, hidle, htime, rfl⟩

/-- Settings with another place to listen on, and nothing else changed. -/
def listeningOn (s : Settings) (address : String) (port : UInt16) : Settings :=
  { s with listen := { s.listen with address := address, port := port } }

/-- Settings have an endpoint only if their address is one. -/
theorem exists_of_endpoint {s : Settings} {e : Endpoint} (h : s.endpoint = .ok e) :
    ∃ a, Address.ofText? s.listen.address = some a := by
  unfold endpoint at h
  split at h
  · exact ⟨_, ‹_›⟩
  · cases h

/-- Settings with an address and a port have them as their endpoint. -/
theorem endpoint_listeningOn {s : Settings} {address : String} {a : Address}
    (h : Address.ofText? address = some a) (port : UInt16) :
    (s.listeningOn address port).endpoint = .ok (.ofAddress a port) := by
  unfold endpoint listeningOn
  simp only [h]

/-- Settings that pass the check pass it with any other place that there is. -/
theorem check_listeningOn {s : Settings} (hs : s.check = .ok ()) {address : String} {a : Address}
    (ha : Address.ofText? address = some a) {port : UInt16} (hport : port ≠ 0) :
    (s.listeningOn address port).check = .ok () := by
  obtain ⟨_, _, hothers⟩ := check_eq_ok_iff.mp hs
  exact check_eq_ok_iff.mpr ⟨hport, ⟨_, endpoint_listeningOn ha port⟩, hothers⟩

/-! ## Loading -/

section

variable {σ : Type} {disk : Disk (StateM σ)} {path : Option String} {w w' : σ}

/-- Settings are loaded if there are some, and with the overrides they pass the check. -/
theorem load_eq_ok_iff {o : Overrides} {s : Settings} :
    (load disk path o).run w = (.ok s, w') ↔
      ∃ s₀, (written disk path).run w = (.ok s₀, w') ∧ (o.apply s₀).check = .ok () ∧
        s = o.apply s₀ := by
  have hrun : (load disk path o).run w =
      (((written disk path).run w).1 >>= fun s₀ =>
        ((o.apply s₀).check.mapError .setting).map fun _ => o.apply s₀,
        ((written disk path).run w).2) := rfl
  rw [hrun, Prod.mk.injEq, bind_eq_ok_iff]
  generalize (written disk path).run w = found
  obtain ⟨r, w₁⟩ := found
  simp only [map_eq_ok_iff, mapError_eq_ok_iff]
  constructor
  · intro h
    obtain ⟨⟨s₀, rfl, _, hcheck, hs⟩, rfl⟩ := h
    exact ⟨s₀, rfl, hcheck, hs.symm⟩
  · intro h
    obtain ⟨s₀, hfound, hcheck, hs⟩ := h
    obtain ⟨rfl, rfl⟩ := Prod.mk.inj hfound
    exact ⟨⟨s₀, rfl, (), hcheck, hs.symm⟩, rfl⟩

end

end Settings

/-! ## The command line -/

namespace CommandLine

/-- A command line that names a configuration text and a place to listen on, or leaves them out, and
says nothing else. -/
def onlyListen (config listen : Option String) : CommandLine :=
  ⟨config, listen, none, none, none, none, none, false⟩

/-- Arguments are taken one after the other, as long as they are not ended. -/
theorem State.takeAll_cons (s : State) {argument : String} (h : argument ≠ "--")
    (rest : List String) :
    s.takeAll (argument :: rest) = s.take argument >>= fun s => s.takeAll rest := by
  rw [takeAll]
  exact h

/-- What does not look like an option is the value of the option in front of it. -/
theorem read_listen {text : String} (h : text.toList.head? ≠ some '-') :
    read ["--listen", text] = .ok (onlyListen none (some text)) := by
  have hoption : State.take ⟨[], none⟩ "--listen" = .ok ⟨[], some (.listen, none)⟩ := by rfl
  have hvalue : State.take ⟨[], some (.listen, none)⟩ text =
      .ok ⟨[], some (.listen, some text)⟩ := by
    unfold State.take
    split
    · rename_i htext
      rw [htext] at h
      exact absurd rfl h
    · rename_i htext
      rw [htext] at h
      exact absurd rfl h
    · rfl
  have hdashes : text ≠ "--" := by
    rintro rfl
    exact h rfl
  have htake : State.takeAll ⟨[], none⟩ ["--listen", text] =
      State.settle ⟨[], some (.listen, some text)⟩ := by
    rw [State.takeAll_cons _ (by decide), hoption, ok_bind, State.takeAll_cons _ hdashes, hvalue,
      ok_bind, State.takeAll]
  rw [read, htake]
  rfl

/-- What is said of where to listen is all that is taken over. -/
theorem overrides_onlyListen {config : Option String} {text : String} {a : ListenAddress}
    (h : ListenAddress.ofText text = .ok a) :
    (onlyListen config (some text)).overrides =
      .ok { Overrides.empty with port := some a.port, address := a.host } := by
  simp only [overrides, onlyListen, Option.mapM_some, h]
  rfl

/-- A process with a command line loads settings, from one state of the disk to another. -/
def LoadsAs {σ : Type} (c : CommandLine) (disk : Disk (StateM σ)) (w : σ) (s : Settings) (w' : σ) :
    Prop :=
  ∃ o, c.overrides = .ok o ∧ (Settings.load disk c.config o).run w = (.ok s, w')

section

variable {σ : Type} {disk : Disk (StateM σ)} {config : Option String} {w w' : σ} {s : Settings}

/-- Without an option, settings are loaded as they are written, if they pass. -/
theorem loadsAs_onlyListen_none_iff :
    (onlyListen config none).LoadsAs disk w s w' ↔
      (Settings.written disk config).run w = (.ok s, w') ∧ s.check = .ok () := by
  have hsilent : (onlyListen config none).overrides = .ok .empty := rfl
  rw [LoadsAs, hsilent]
  simp only [Settings.load_eq_ok_iff]
  constructor
  · intro h
    obtain ⟨_, ho, s₀, hwritten, hcheck, rfl⟩ := h
    obtain rfl := Except.ok.inj ho
    exact ⟨hwritten, hcheck⟩
  · intro h
    obtain ⟨hwritten, hcheck⟩ := h
    exact ⟨_, rfl, s, hwritten, hcheck, rfl⟩

/-- The settings are those without a place to listen on the command line, with that place. -/
theorem loadsAs_onlyListen (h : (onlyListen config none).LoadsAs disk w s w') {text : String}
    {l : ListenAddress} (hl : ListenAddress.ofText text = .ok l) {a : Address}
    (ha : Address.ofText? (l.host.getD s.listen.address) = some a) (hport : l.port ≠ 0) :
    (onlyListen config (some text)).LoadsAs disk w
      (s.listeningOn (l.host.getD s.listen.address) l.port) w' := by
  obtain ⟨hwritten, hcheck⟩ := loadsAs_onlyListen_none_iff.mp h
  refine ⟨_, overrides_onlyListen hl, Settings.load_eq_ok_iff.mpr ⟨s, hwritten, ?_, ?_⟩⟩
  · exact Settings.check_listeningOn hcheck ha hport
  · rfl

/-- **An endpoint on the command line is the one that is listened on.** With its text there the same
settings are loaded as without it, but for the address, which is written as in the text, and for the
port; and their endpoint is that one. With a port alone, behind a colon, the address of the settings
stays as it is. A port is not zero in either case. -/
theorem loadsAs_listening (h : (onlyListen config none).LoadsAs disk w s w') :
    (∀ a port, port ≠ 0 →
      read ["--listen", (Endpoint.ofAddress a port).toText] =
        .ok (onlyListen none (some (Endpoint.ofAddress a port).toText)) ∧
      (onlyListen config (some (Endpoint.ofAddress a port).toText)).LoadsAs disk w
        (s.listeningOn a.toText port) w' ∧
      (s.listeningOn a.toText port).endpoint = .ok (.ofAddress a port)) ∧
    ∃ a, s.endpoint = .ok (.ofAddress a s.listen.port) ∧
      ∀ number port, Decimal.read16 number.toList = .ok port → port ≠ 0 →
        read ["--listen", ":" ++ number] = .ok (onlyListen none (some (":" ++ number))) ∧
        (onlyListen config (some (":" ++ number))).LoadsAs disk w
          (s.listeningOn s.listen.address port) w' ∧
        (s.listeningOn s.listen.address port).endpoint = .ok (.ofAddress a port) := by
  refine ⟨fun a port hport => ?_, ?_⟩
  · have hl := ListenAddress.ofText_endpoint a port
    have ha : Address.ofText? a.toText = some a := by
      rw [Address.ofText?, Address.toText, String.toList_ofList, Address.read_render]
    refine ⟨read_listen (ListenAddress.head?_toText_ne a port), ?_,
      Settings.endpoint_listeningOn ha port⟩
    exact loadsAs_onlyListen h hl ha hport
  · obtain ⟨_, hcheck⟩ := loadsAs_onlyListen_none_iff.mp h
    obtain ⟨_, ⟨e, he⟩, _⟩ := Settings.check_eq_ok_iff.mp hcheck
    obtain ⟨a, ha⟩ := Settings.exists_of_endpoint he
    refine ⟨a, Settings.endpoint_listeningOn ha s.listen.port, fun number port hnumber hport => ?_⟩
    have hl := ListenAddress.ofText_port hnumber
    refine ⟨read_listen (by simp), ?_, Settings.endpoint_listeningOn ha port⟩
    exact loadsAs_onlyListen h hl ha hport

end

/-- A folder without a configuration text. -/
def emptyFolder : FileTree := ⟨.folder [], []⟩

/-- The standard settings listen on an IPv4-mapped address, or on another port. -/
theorem loadsAs_listening_mapped :
    (onlyListen none (some "[::ffff:10.0.0.1]:5353")).LoadsAs FileTree.disk emptyFolder
      (Settings.standard.listeningOn "::ffff:10.0.0.1" 5353) emptyFolder ∧
    (Settings.standard.listeningOn "::ffff:10.0.0.1" 5353).endpoint =
      .ok (.v6 0xffff0a000001 0 5353) ∧
    (onlyListen none (some ":05353")).LoadsAs FileTree.disk emptyFolder
      (Settings.standard.listeningOn "0.0.0.0" 5353) emptyFolder := by
  have hloaded : ((Settings.load FileTree.disk none .empty).run emptyFolder).1 =
      .ok Settings.standard := by decide +kernel
  have hload : (onlyListen none none).LoadsAs FileTree.disk emptyFolder Settings.standard
      emptyFolder := ⟨.empty, rfl, Prod.ext hloaded rfl⟩
  have haddress : (Address.v6 0xffff0a000001).toText = "::ffff:10.0.0.1" := by decide +kernel
  have htext : (Endpoint.ofAddress (.v6 0xffff0a000001) 5353).toText =
      "[::ffff:10.0.0.1]:5353" := by decide +kernel
  obtain ⟨hendpoint, _, _, hport⟩ := loadsAs_listening hload
  obtain ⟨_, hmapped, hserved⟩ := hendpoint (.v6 0xffff0a000001) 5353 (by decide)
  obtain ⟨_, hkept, _⟩ := hport "05353" 5353 (by decide +kernel) (by decide)
  rw [htext, haddress] at hmapped
  rw [haddress] at hserved
  exact ⟨hmapped, hserved, hkept⟩

end CommandLine

end SplitHorizon
