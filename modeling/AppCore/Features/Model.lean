/-
  AppCore.Features.Model

  The control services of the features under `app/features`: the descriptor that each of them
  registers, and the inline functions of the headers, through which the rest of the program
  calls them.  What an operation does is code of the feature, and may return anything.
-/

import AppCore.Service.Model

namespace AppCore
namespace Features

open Service (ServiceDesc)

/-- The features that register a control service. -/
inductive Feature where
  | wifi
  | gps
  | imu
  | camera
  | zlmedia
deriving DecidableEq, Repr

/-- `SYS_MOD_*`: the `id` of the manifest. -/
def Feature.moduleId : Feature → UInt32
  | .wifi => 0x0100
  | .gps => 0x0200
  | .imu => 0x0300
  | .camera => 0x0400
  | .zlmedia => 0x0500

/-- `WIFI_INTERFACE_CONTROL` and its like. -/
def Feature.interfaceId : Feature → UInt32
  | .wifi => 1
  | .gps => 1
  | .imu => 1
  | .camera => 1
  | .zlmedia => 1

/-- `WIFI_ABI_VERSION` and its like. -/
def Feature.abiVersion : Feature → UInt32
  | .wifi => 1
  | .gps => 1
  | .imu => 1
  | .camera => 1
  | .zlmedia => 1

/-- The members of `wifi_ops_t`, `gps_ops_t`, `imu_ops_t`, `camera_ops_t` and
    `zlmedia_ops_t`. -/
inductive Operation where
  | connect
  | getRssi
  | disconnect
  | getCoordinates
  | getAcceleration
  | startStream
  | stopStream
  | isStreaming
  | setPort
  | getStreaming
deriving DecidableEq, Repr

/-- The operations of a feature in the order of its structure. -/
def Feature.operations : Feature → List Operation
  | .wifi => [.connect, .getRssi, .disconnect]
  | .gps => [.getCoordinates]
  | .imu => [.getAcceleration]
  | .camera => [.startStream, .stopStream, .isStreaming]
  | .zlmedia => [.setPort, .getStreaming]

/-- `sizeof(wifi_ops_t)` and its like. -/
def Feature.opsSize (P : Platform) (f : Feature) : Nat := f.operations.length * P.pointerSize

/-- The name in the descriptor. -/
def Feature.serviceName : Feature → String
  | .wifi => "wifi.control"
  | .gps => "gps.control"
  | .imu => "imu.control"
  | .camera => "camera.control"
  | .zlmedia => "zlmedia.control"

/-- Where `g_wifi_ops` and its like are, and which of their members are not `NULL`. -/
structure Tables where
  address : Feature → Nat
  defined : Operation → Bool
  address_ne : ∀ f, address f ≠ 0

/-- Five tables of the size of a page, with all their members. -/
def Tables.sample : Tables where
  address
    | .wifi => 0x1000
    | .gps => 0x2000
    | .imu => 0x3000
    | .camera => 0x4000
    | .zlmedia => 0x5000
  defined := fun _ => true
  address_ne := by
    intro f
    cases f <;> decide

/-- The descriptor in `wifi_init`, `gps_init`, `imu_init`, `camera_init` and `zlmedia_init`. -/
def Tables.service (A : Tables) (P : Platform) (f : Feature) : ServiceDesc where
  moduleId := f.moduleId
  interfaceId := f.interfaceId
  abiVersion := f.abiVersion
  opsSize := f.opsSize P
  ops := A.address f
  name := some f.serviceName

/-- A call of an inline function.  A pointer to a result is false for `NULL`. -/
inductive Facade where
  | wifiConnect (ssid password : Option String)
  | wifiGetRssi (outRssi : Bool)
  | wifiDisconnect
  | gpsGetCoordinates (latitude longitude : Bool)
  | imuGetAcceleration (x y z : Bool)
  | cameraStartStream (fps width height : UInt32)
  | cameraStopStream
  | cameraIsStreaming (outStreaming : Bool)
  | zlmediaSetPort (port : UInt32)
  | zlmediaGetStreaming (outStreaming : Bool)
deriving DecidableEq, Repr

/-- The service that a call acquires. -/
def Facade.feature : Facade → Feature
  | .wifiConnect _ _ => .wifi
  | .wifiGetRssi _ => .wifi
  | .wifiDisconnect => .wifi
  | .gpsGetCoordinates _ _ => .gps
  | .imuGetAcceleration _ _ _ => .imu
  | .cameraStartStream _ _ _ => .camera
  | .cameraStopStream => .camera
  | .cameraIsStreaming _ => .camera
  | .zlmediaSetPort _ => .zlmedia
  | .zlmediaGetStreaming _ => .zlmedia

/-- The member of the table that a call goes through. -/
def Facade.operation : Facade → Operation
  | .wifiConnect _ _ => .connect
  | .wifiGetRssi _ => .getRssi
  | .wifiDisconnect => .disconnect
  | .gpsGetCoordinates _ _ => .getCoordinates
  | .imuGetAcceleration _ _ _ => .getAcceleration
  | .cameraStartStream _ _ _ => .startStream
  | .cameraStopStream => .stopStream
  | .cameraIsStreaming _ => .isStreaming
  | .zlmediaSetPort _ => .setPort
  | .zlmediaGetStreaming _ => .getStreaming

/-- The test of the arguments. -/
def Facade.valid : Facade → Bool
  | .wifiConnect ssid password => ssid.isSome && password.isSome
  | .wifiGetRssi outRssi => outRssi
  | .gpsGetCoordinates latitude longitude => latitude && longitude
  | .imuGetAcceleration x y z => x && y && z
  | .cameraIsStreaming outStreaming => outStreaming
  | .zlmediaGetStreaming outStreaming => outStreaming
  | .wifiDisconnect => true
  | .cameraStartStream _ _ _ => true
  | .cameraStopStream => true
  | .zlmediaSetPort _ => true

/-- What a call returns when its operation has returned `ret`.  `is_streaming` has no error
    code, and its result is stored. -/
def Facade.answer : Facade → SysErr → SysErr
  | .cameraIsStreaming _, _ => .ok
  | _, ret => ret

/-! ## The descriptors -/

section Descriptors

variable {P : Platform} {A : Tables} {f g : Feature}

theorem Facade.operation_mem (c : Facade) : c.operation ∈ c.feature.operations := by
  cases c <;> simp [Facade.operation, Facade.feature, Feature.operations]

theorem Feature.opsSize_pos (P : Platform) (f : Feature) : 0 < f.opsSize P := by
  have hlength : 0 < f.operations.length := by
    cases f <;> decide
  have hpointer : 0 < P.pointerSize := Nat.lt_of_lt_of_le Nat.zero_lt_two P.two_le_pointerSize
  exact Nat.mul_pos hlength hpointer

theorem Feature.moduleId_injective : Function.Injective Feature.moduleId := by
  intro f g h
  revert h
  cases f <;> cases g <;> decide

/-- The key of the registry tells the features apart. -/
theorem Tables.service_injective (A : Tables) (P : Platform)
    (h : (A.service P f).key = (A.service P g).key) : f = g :=
  Feature.moduleId_injective (Prod.mk.inj h).1

/-- No descriptor is refused for what is in it. -/
theorem Tables.service_valid (A : Tables) (P : Platform) (f : Feature) :
    ¬ ((A.service P f).moduleId = 0 ∨ (A.service P f).interfaceId = 0 ∨
      (A.service P f).abiVersion = 0 ∨ (A.service P f).ops = 0 ∨ (A.service P f).opsSize = 0 ∨
      (A.service P f).name = none) := by
  have hmodule : f.moduleId ≠ 0 := by
    cases f <;> decide
  have hinterface : f.interfaceId ≠ 0 := by
    cases f <;> decide
  have habi : f.abiVersion ≠ 0 := by
    cases f <;> decide
  have hsize : f.opsSize P ≠ 0 := Nat.ne_of_gt (f.opsSize_pos P)
  rintro (h | h | h | h | h | h)
  · exact hmodule h
  · exact hinterface h
  · exact habi h
  · exact A.address_ne f h
  · exact hsize h
  · cases h

end Descriptors

end Features
end AppCore
