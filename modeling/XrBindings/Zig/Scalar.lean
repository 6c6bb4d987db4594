/-!
# Foreign types in Zig

The types of C that a registry may use without declaring them, and the types of platforms and of
other APIs, each with the Zig type of the same layout.
-/

namespace XrBindings.Zig

/-- The scalar types of C. -/
def cTypes : List (String × String) :=
  [("void", "void"), ("char", "u8"), ("float", "f32"), ("double", "f64"), ("int", "c_int"),
   ("int8_t", "i8"), ("uint8_t", "u8"), ("int16_t", "i16"), ("uint16_t", "u16"),
   ("int32_t", "i32"), ("uint32_t", "u32"), ("int64_t", "i64"), ("uint64_t", "u64"),
   ("size_t", "usize"), ("intptr_t", "isize"), ("uintptr_t", "usize")]

/-- The types of C that hold plain numbers. -/
def numericCTypes : List String :=
  ["float", "double", "int", "int8_t", "uint8_t", "int16_t", "uint16_t", "int32_t", "uint32_t",
   "int64_t", "uint64_t", "size_t"]

/-- A pointer to anything. -/
def anyPointer : String := "?*anyopaque"

/-- A function that finds functions by name. -/
def procFinder : String :=
  "?*const fn ([*:0]const u8) callconv(.c) ?*const fn () callconv(.c) void"

/-- Types that platform headers declare. -/
def platformTypes : List (String × String) :=
  [("HDC", anyPointer), ("HGLRC", anyPointer), ("HWND", anyPointer), ("HANDLE", anyPointer),
   ("HINSTANCE", anyPointer), ("LARGE_INTEGER", "i64"), ("LUID", "u64"),
   ("D3D_FEATURE_LEVEL", "c_int"), ("DXGI_FORMAT", "c_int"), ("GLXFBConfig", anyPointer),
   ("GLXDrawable", "c_ulong"), ("GLXContext", anyPointer), ("xcb_glx_fbconfig_t", "u32"),
   ("xcb_visualid_t", "u32"), ("xcb_glx_drawable_t", "u32"), ("xcb_glx_context_t", "u32"),
   ("EGLDisplay", anyPointer), ("EGLConfig", anyPointer), ("EGLContext", anyPointer),
   ("EGLenum", "u32"), ("PFNEGLGETPROCADDRESSPROC", procFinder), ("jobject", anyPointer),
   ("VkInstance", anyPointer), ("VkPhysicalDevice", anyPointer), ("VkDevice", anyPointer),
   ("VkQueue", anyPointer), ("VkCommandBuffer", anyPointer), ("VkImage", "u64"),
   ("VkDeviceMemory", "u64"), ("VkFormat", "i32"), ("VkResult", "i32"), ("VkFilter", "i32"),
   ("VkSamplerMipmapMode", "i32"), ("VkSamplerAddressMode", "i32"),
   ("VkComponentSwizzle", "i32"), ("VkImageCreateFlags", "u32"), ("VkImageUsageFlags", "u32"),
   ("PFN_vkGetInstanceProcAddr",
    "?*const fn (?*anyopaque, [*:0]const u8) callconv(.c) ?*const fn () callconv(.c) void"),
   ("MLCoordinateFrameUID", "[2]u64")]

def isCType (name : String) : Bool := (cTypes.lookup name).isSome

def isPlatformType (name : String) : Bool := (platformTypes.lookup name).isSome

end XrBindings.Zig
