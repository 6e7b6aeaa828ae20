/-!
# Common tracking libraries

The signatures that are used when there is no signature file: name, category and fragments of class
names.
-/

namespace IntentFirewall

/-- The built-in signatures. -/
def builtinSignatures : List (String × String × List String) := [
  ("Google Firebase Analytics", "analytics",
    ["com.google.firebase.analytics.", "com.google.android.gms.measurement."]),
  ("Google Analytics", "analytics", ["com.google.android.gms.analytics."]),
  ("Flurry", "analytics", ["com.flurry."]),
  ("Mixpanel", "analytics", ["com.mixpanel."]),
  ("Amplitude", "analytics", ["com.amplitude."]),
  ("Segment", "analytics", ["com.segment.analytics."]),
  ("Microsoft Visual Studio App Center Analytics", "analytics",
    ["com.microsoft.appcenter.analytics."]),
  ("Yandex AppMetrica", "analytics", ["com.yandex.metrica."]),
  ("Huawei Mobile Services (HMS) Core", "analytics", ["com.huawei.hms.analytics."]),
  ("Google CrashLytics", "crash_reporting",
    ["com.crashlytics.", "com.google.firebase.crashlytics."]),
  ("Bugsnag", "crash_reporting", ["com.bugsnag."]),
  ("Sentry", "crash_reporting", ["io.sentry."]),
  ("Instabug", "crash_reporting", ["com.instabug."]),
  ("Google AdMob", "advertisement", ["com.google.android.gms.ads."]),
  ("Facebook Ads", "advertisement", ["com.facebook.ads."]),
  ("AppLovin (MAX and SparkLabs)", "advertisement", ["com.applovin."]),
  ("Unity3d Ads", "advertisement", ["com.unity3d.ads.", "com.unity3d.services."]),
  ("IronSource", "advertisement", ["com.ironsource."]),
  ("Vungle", "advertisement", ["com.vungle."]),
  ("Chartboost", "advertisement", ["com.chartboost."]),
  ("InMobi", "advertisement", ["com.inmobi."]),
  ("MoPub", "advertisement", ["com.mopub."]),
  ("Pangle", "advertisement", ["com.bytedance.sdk.openadsdk."]),
  ("AppsFlyer", "attribution", ["com.appsflyer."]),
  ("Adjust", "attribution", ["com.adjust.sdk."]),
  ("Branch", "attribution", ["io.branch."]),
  ("Kochava", "attribution", ["com.kochava."]),
  ("Singular", "attribution", ["com.singular.sdk."]),
  ("Facebook Analytics", "profiling",
    ["com.facebook.appevents.", "com.facebook.CustomTabActivity"]),
  ("Facebook Login", "identification", ["com.facebook.login."]),
  ("OneSignal", "profiling", ["com.onesignal."]),
  ("Braze (formerly Appboy)", "profiling", ["com.appboy.", "com.braze."]),
  ("Batch", "profiling", ["com.batch.android."]),
  ("Leanplum", "profiling", ["com.leanplum."])]

end IntentFirewall
