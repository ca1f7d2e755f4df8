/-!
# AccessRegistry.Lock

Keys of advisory locks. A lock has a name; its key is the 32-bit FNV-1a hash of the name after a
namespace, so that all instances of the service agree on it.
-/

namespace AccessRegistry
namespace Lock

/-- What stands in front of every name. -/
def nameSpace : String := "msp-service-template"

/-- The lock that provisioning takes. -/
def baselineName : String := "isp-system-service.baseline"

def offsetBasis : UInt32 := 0x811c9dc5

def prime : UInt32 := 0x01000193

/-- The hash after one more byte. -/
def mix (hash : UInt32) (byte : UInt8) : UInt32 := (hash ^^^ byte.toUInt32) * prime

/-- The 32-bit FNV-1a hash. -/
def fnv1a32 (bytes : List UInt8) : UInt32 := bytes.foldl mix offsetBasis

/-- The key of a lock. -/
def key (name : String) : Int64 :=
  Int64.ofInt (fnv1a32 (nameSpace ++ name).toUTF8.toList).toNat

end Lock
end AccessRegistry
